/-
  Chains are collapsed expansions.

  `Expansion` follows one chain through the walk.  Here the walk is started for one name after the
  other, each time with the memo that the last one left: whatever the names are and in whatever
  order they come, each record holds the expansion of its name, collapsed once at the end.
-/
import Lineage.Proofs.Ancestry.Expansion

namespace Lineage.DeclarationTable

open Relation

/-- The records of `names`, in order, each with the collapsed expansion of its name; or a failure,
    which names a cycle. -/
def Recorded (table : DeclarationTable) (names : List String) :
    Except ExtractionFailure (List AncestorRecord) → Prop
  | .ok records => records.map (·.name) = names ∧ ∀ record ∈ records,
      ∃ expansion, table.Expands [record.name] expansion ∧ record.ancestors = keepLast expansion
  | .error failure => table.CycleFrom names failure

/-- Any sound memo will do to begin with, so it makes no difference which names came before. -/
theorem records_spec (table : DeclarationTable) {memo : Memo} (hMemo : table.MemoSound memo)
    (names : List String) : table.Recorded names (table.records memo names) := by
  -- On the names, for any sound memo, as each chain that is made leaves a larger one behind.
  induction names generalizing memo with
  | nil => exact ⟨rfl, List.forall_mem_nil _⟩
  | cons name rest ih =>
    obtain ⟨hWalked, hCollapsed⟩ :=
      (chain_spec table).1 [] memo name (List.forall_mem_nil _) hMemo
    rw [records]
    rcases hWalked.cases with
      ⟨failure, hChain, hCycle⟩ | ⟨ancestors, memo', expansion, hChain, hMemo', hExpands, hLinear⟩
    · rw [hChain]
      exact hCycle.mono (List.cons_subset_cons name (List.nil_subset rest))
    rw [hCollapsed ancestors memo' hChain] at hLinear
    rw [hChain]
    dsimp only [bind, Except.bind]
    have hRest := ih hMemo'
    cases hRecords : table.records memo' rest with
    | error failure =>
      rw [hRecords] at hRest
      exact CycleFrom.mono hRest (List.subset_cons_self name rest)
    | ok others =>
      rw [hRecords] at hRest
      obtain ⟨hNames, hChains⟩ := hRest
      refine ⟨?_, List.forall_mem_cons.2 ⟨⟨expansion, hExpands, hLinear⟩, hChains⟩⟩
      rw [List.map_cons, hNames]

/-- Where no cycle can be reached all names get their records. -/
theorem exists_records_of_acyclicFrom {table : DeclarationTable} {names : List String}
    (hAcyclic : table.AcyclicFrom names) : ∃ records, table.records .empty names = .ok records := by
  have hSpec := records_spec table (memoSound_empty table) names
  cases hRecords : table.records .empty names with
  | error failure =>
    rw [hRecords] at hSpec
    obtain ⟨name, hName, repeated, hReach, hCycle, -⟩ := hSpec
    exact absurd hCycle (hAcyclic name hName repeated hReach)
  | ok records => exact ⟨records, rfl⟩

/-- **The documented order.**  If no cycle can be reached from the names, they all get their chains,
    and each chain is the expansion of its name, of which there is just one, with every name kept
    where it occurs last.  Neither the memo nor the order of the names shows in any chain.  For the
    names that a dump declares these are the records of the dump. -/
theorem records_eq_keepLast_expansion (table : DeclarationTable) (names : List String)
    (hAcyclic : table.AcyclicFrom names) :
    ∃ records, table.records .empty names = .ok records ∧ records.map (·.name) = names ∧
      (∀ record ∈ records, ∃ expansion, table.Expands [record.name] expansion ∧
        (∀ other, table.Expands [record.name] other → other = expansion) ∧
        record.ancestors = keepLast expansion) ∧
      ∀ dump, ofDump dump = .ok table → table.declared = names → linearize dump = .ok records := by
  have hSpec := records_spec table (memoSound_empty table) names
  cases hRecords : table.records .empty names with
  | error failure =>
    rw [hRecords] at hSpec
    obtain ⟨name, hName, repeated, hReach, hCycle, -⟩ := hSpec
    exact absurd hCycle (hAcyclic name hName repeated hReach)
  | ok records =>
    rw [hRecords] at hSpec
    refine ⟨records, rfl, hSpec.1, fun record hRecord => ?_, fun dump hDump hNames => ?_⟩
    · obtain ⟨expansion, hExpands, hAncestors⟩ := hSpec.2 record hRecord
      exact ⟨expansion, hExpands, fun other hOther => hOther.unique hExpands, hAncestors⟩
    · rw [linearize, hDump]
      dsimp only [bind, Except.bind]
      rw [hNames, hRecords]

/-- A class that meets one module along three ways, one of them in front of it. -/
def diamond : DeclarationTable where
  known := .ofList (core ++ [
    ("M", { kind := .mixin }),
    ("A", { kind := .mixin, includes := [["M"]] }),
    ("B", { kind := .mixin, includes := [["M"], ["Comparable"]] }),
    ("C", { kind := .ordinary, includes := [["A", "B"]], prepends := [["M"]] })])
  declared := ["C", "A", "B", "M"]

/-- A name refers only to names before it. -/
theorem diamond_falls : ∀ entry ∈ diamond.known.entries,
    ∀ other ∈ diamond.before entry.1 entry.2 ++ diamond.after entry.1 entry.2,
      diamond.known.keys.idxOf other < diamond.known.keys.idxOf entry.1 := by
  decide +kernel

theorem records_eq_keepLast_expansion_diamond :
    diamond.AcyclicFrom diamond.declared ∧
      ∃ records, diamond.records .empty diamond.declared = .ok records ∧
        records.map (·.name) = ["C", "A", "B", "M"] ∧
        ∀ record ∈ records, ∃ expansion, diamond.Expands [record.name] expansion ∧
          record.ancestors = keepLast expansion := by
  have hAcyclic := acyclicFrom_of_rank _ diamond_falls diamond.declared
  obtain ⟨records, hRecords, hNames, hChains, -⟩ :=
    records_eq_keepLast_expansion diamond diamond.declared hAcyclic
  refine ⟨hAcyclic, records, hRecords, hNames, fun record hRecord => ?_⟩
  obtain ⟨expansion, hExpands, -, hAncestors⟩ := hChains record hRecord
  exact ⟨expansion, hExpands, hAncestors⟩

end Lineage.DeclarationTable
