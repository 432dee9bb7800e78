/-
  The walk always ends, and it fails exactly where a cycle can be reached.

  ENDING.  Calls of the walk nest one level deeper only for a known name that is not under way yet,
  so with one level more than there are known names it never runs out of levels.  `chainWithin` is
  the walk with a bound on its levels and no other reason to stop; it comes to what `chain` comes
  to.

  FAILING.  That a failure names a cycle is what the walk was shown to do (`chain_spec`).  The other
  direction is about success: a finished chain has an expansion, an expansion is a FINITE unfolding
  of all references, and from a name that has one no cycle can be reached (`Expands.acyclicFrom`).
  The walk may have taken parts of a chain from its memo, but the expansion is unfolded from the
  table alone; so no cycle hides behind a finished chain.
-/
import Lineage.Proofs.Ancestry.NaiveOrder

namespace Lineage.DeclarationTable

open Relation

/-! ## The walk with a bound on its levels -/

/-- The chains of several names, each by `step`, with the memo handed on. -/
def chainsBy (step : Memo → String → ExceptT ExtractionFailure Option (List String × Memo))
    (memo : Memo) : List String → ExceptT ExtractionFailure Option (List String × Memo)
  | [] => return ([], memo)
  | name :: rest => do
    let (first, memo) ← step memo name
    let (others, memo) ← chainsBy step memo rest
    return (first ++ others, memo)

/-- The chain of `name` if its calls nest at most `levels` deep, and `none` if they nest deeper. -/
def chainWithin (table : DeclarationTable) : (levels : Nat) → List String → Memo → String →
    ExceptT ExtractionFailure Option (List String × Memo)
  | 0, _, _, _ => ExceptT.mk none
  | levels + 1, visiting, memo, name =>
    match memo.get? name with
    | some finished => return (finished, memo)
    | none =>
      match table.known.get? name with
      | none => return ([name], memo)
      | some d =>
        if name ∈ visiting then throw (.cycle name)
        else do
          let deeper := chainWithin table levels (name :: visiting)
          let (before, memo) ← chainsBy deeper memo (table.before name d)
          let (after, memo) ← chainsBy deeper memo (table.after name d)
          let linear := keepLast (before ++ name :: after)
          return (linear, memo.insert name linear)

/-- Where a step has ended, the bounded walk goes on as the walk does. -/
theorem some_bind_eq {α β : Type} {result : Except ExtractionFailure α}
    {within : α → ExceptT ExtractionFailure Option β} {next : α → Except ExtractionFailure β}
    (hNext : ∀ value, within value = ExceptT.mk (some (next value))) :
    (ExceptT.mk (some result) >>= within) = ExceptT.mk (some (result >>= next)) := by
  cases result with
  | error failure => rfl
  | ok value => exact hNext value

/-- **The walk ends**: more levels than there are known names not under way are enough. -/
theorem chainWithin_eq_chain (table : DeclarationTable) :
    (∀ (visiting : List String) (memo : Memo) (name : String) (levels : Nat),
      (table.idle visiting).length < levels →
        table.chainWithin levels visiting memo name =
          ExceptT.mk (some (table.chain visiting memo name))) ∧
    (∀ (visiting : List String) (memo : Memo) (names : List String) (levels : Nat),
      (table.idle visiting).length < levels →
        chainsBy (table.chainWithin levels visiting) memo names =
          ExceptT.mk (some (table.chains visiting memo names))) := by
  refine chain.mutual_induct table _ _ ?finished ?unknown ?busy ?idle ?nil ?cons
  case finished =>
    intro visiting memo name finished hFinished levels hLevels
    obtain ⟨levels, rfl⟩ := Nat.exists_eq_add_of_lt hLevels
    rw [chainWithin, hFinished, chain_of_finished hFinished]
    rfl
  case unknown =>
    intro visiting memo name hNone hUnknown levels hLevels
    obtain ⟨levels, rfl⟩ := Nat.exists_eq_add_of_lt hLevels
    rw [chainWithin, hNone, hUnknown, chain_of_unknown hNone hUnknown]
    rfl
  case busy =>
    intro visiting memo name hNone d hKnown hBusy levels hLevels
    obtain ⟨levels, rfl⟩ := Nat.exists_eq_add_of_lt hLevels
    rw [chainWithin, hNone, hKnown, chain_of_busy hNone hKnown hBusy]
    dsimp only
    rw [if_pos hBusy]
    rfl
  case idle =>
    intro visiting memo name hNone d hKnown hIdle ihBefore ihAfter levels hLevels
    obtain ⟨levels, rfl⟩ : ∃ deeper, levels = deeper + 1 := ⟨levels - 1, by omega⟩
    -- One level down one name more is under way, so the bound still holds there.
    have hFalls := idle_cons_lt hKnown hIdle
    have hDeeper : (table.idle (name :: visiting)).length < levels := by omega
    rw [chainWithin, hNone, hKnown, chain_of_idle hNone hKnown hIdle]
    dsimp only
    rw [if_neg hIdle, ihBefore levels hDeeper]
    refine some_bind_eq fun result => ?_
    obtain ⟨before, memo₁⟩ := result
    dsimp only
    rw [ihAfter memo₁ levels hDeeper]
    exact some_bind_eq fun _ => rfl
  case nil =>
    intro visiting memo levels hLevels
    rw [chains]
    rfl
  case cons =>
    intro visiting memo name rest ihName ihRest levels hLevels
    rw [chainsBy, chains, ihName levels hLevels]
    refine some_bind_eq fun result => ?_
    obtain ⟨first, memo₁⟩ := result
    dsimp only
    rw [ihRest memo₁ levels hLevels]
    exact some_bind_eq fun _ => rfl

/-! ## No cycle below an expansion -/

theorem acyclicFrom_cons_iff {table : DeclarationTable} {name : String} {rest : List String} :
    table.AcyclicFrom (name :: rest) ↔ table.AcyclicFrom [name] ∧ table.AcyclicFrom rest := by
  rw [AcyclicFrom, List.forall_mem_cons, AcyclicFrom, List.forall_mem_singleton, AcyclicFrom]

theorem acyclicFrom_append_iff {table : DeclarationTable} {names others : List String} :
    table.AcyclicFrom (names ++ others) ↔ table.AcyclicFrom names ∧ table.AcyclicFrom others :=
  List.forall_mem_append

/-- A cycle that can be reached from a name can be reached from one of its references: if the name
    lies on the cycle itself, then so does the reference by which the cycle leaves it. -/
theorem acyclicFrom_of_refers {table : DeclarationTable} {name : String} {names : List String}
    (hNames : ∀ other, table.Refers name other → other ∈ names)
    (hAcyclic : table.AcyclicFrom names) : table.AcyclicFrom [name] := by
  intro start hStart other hReach hCycle
  obtain rfl := List.mem_singleton.1 hStart
  have hBehind : ∃ next, table.Refers start next ∧ ReflTransGen table.Refers next other := by
    rcases hReach.cases_head with rfl | hBehind
    · exact TransGen.head'_iff.1 hCycle
    · exact hBehind
  obtain ⟨next, hRefers, hNext⟩ := hBehind
  exact hAcyclic next (hNames next hRefers) other hNext hCycle

/-- **What has an expansion reaches no cycle.** -/
theorem Expands.acyclicFrom {table : DeclarationTable} {names expansion : List String}
    (hExpands : table.Expands names expansion) : table.AcyclicFrom names := by
  induction hExpands with
  | nil => exact List.forall_mem_nil _
  | unknown hUnknown _ ih =>
    refine acyclicFrom_cons_iff.2 ⟨acyclicFrom_of_refers ?_ (List.forall_mem_nil _), ih⟩
    rintro other ⟨d, hKnown, -⟩
    rw [hUnknown] at hKnown
    cases hKnown
  | @declared name d rest prepended included inherited others hKnown _ _ _ _ ihPrepended ihIncluded
      ihInherited ihRest =>
    have hReferences : table.AcyclicFrom (table.before name d ++ table.after name d) := by
      rw [before, after, ← latestFirst_eq_mixedIn, ← latestFirst_eq_mixedIn]
      exact acyclicFrom_append_iff.2
        ⟨ihPrepended, acyclicFrom_append_iff.2 ⟨ihIncluded, ihInherited⟩⟩
    refine acyclicFrom_cons_iff.2 ⟨acyclicFrom_of_refers ?_ hReferences, ihRest⟩
    rintro other ⟨d', hKnown', hOther⟩
    obtain rfl : d = d' := Option.some.inj (hKnown.symm.trans hKnown')
    exact hOther

/-- The names that have records reach no cycle. -/
theorem acyclicFrom_of_records {table : DeclarationTable} {names : List String}
    {records : List AncestorRecord} (hRecords : table.records .empty names = .ok records) :
    table.AcyclicFrom names := by
  have hSpec := records_spec table (memoSound_empty table) names
  rw [hRecords] at hSpec
  obtain ⟨hNames, hChains⟩ := hSpec
  intro name hName
  rw [← hNames] at hName
  obtain ⟨record, hRecord, rfl⟩ := List.mem_map.1 hName
  obtain ⟨expansion, hExpands, -⟩ := hChains record hRecord
  exact hExpands.acyclicFrom record.name (List.mem_singleton_self _)

/-! ## Dumps -/

/-- What is left of a linearization when the dump has been read. -/
theorem linearize_of_ofDump {dump : String} {table : DeclarationTable}
    (hDump : ofDump dump = .ok table) :
    linearize dump = table.records .empty table.declared := by
  rw [linearize, hDump]
  rfl

/-- No more names can be under way than are known, which bounds the levels of the walk. -/
theorem length_idle_le (table : DeclarationTable) (visiting : List String) :
    (table.idle visiting).length ≤ table.known.size := by
  have hFilter : (table.idle visiting).length ≤ table.known.keys.length :=
    List.length_filter_le _ _
  rwa [OrderedMap.keys, Entries.keys, List.length_map] at hFilter

/-- **Linearization ends, and reports a cycle where there is one.**  Whatever is finished already,
    the calls for a declared name nest at most one level deeper than there are known names.  The
    whole fails with a cycle if and only if some cycle of references can be reached from a declared
    name; the name in the failure then lies on such a cycle; and where none can be reached, every
    declared name gets its record, along however many ways its references meet. -/
theorem linearize_eq_cycle_iff (dump : String) (table : DeclarationTable)
    (hDump : ofDump dump = .ok table) :
    (∀ name ∈ table.declared, ∀ memo,
      (table.chainWithin (table.known.size + 1) [] memo name).run =
        some (table.chain [] memo name)) ∧
    ((∃ name, linearize dump = .error (.cycle name)) ↔
      ∃ name ∈ table.declared, ∃ repeated, ReflTransGen table.Refers name repeated ∧
        TransGen table.Refers repeated repeated) ∧
    (∀ failure, linearize dump = .error failure → ∃ name ∈ table.declared, ∃ repeated,
      failure = .cycle repeated ∧ ReflTransGen table.Refers name repeated ∧
        TransGen table.Refers repeated repeated) ∧
    ((∀ name ∈ table.declared, ∀ other, ReflTransGen table.Refers name other →
        ¬ TransGen table.Refers other other) →
      ∃ records, linearize dump = .ok records ∧ records.map (·.name) = table.declared) := by
  -- One level more than there are known names is never used up.
  have hLevels := Nat.lt_succ_of_le (table.length_idle_le [])
  have hSpec := records_spec table (memoSound_empty table) table.declared
  refine ⟨fun name _ memo => (chainWithin_eq_chain table).1 [] memo name _ hLevels, ?_⟩
  rw [linearize_of_ofDump hDump]
  cases hRecords : table.records .empty table.declared with
  | error failure =>
    rw [hRecords] at hSpec
    obtain ⟨name, hName, repeated, hReach, hCycle, rfl⟩ := hSpec
    refine ⟨⟨fun _ => ⟨name, hName, repeated, hReach, hCycle⟩, fun _ => ⟨repeated, rfl⟩⟩, ?_, ?_⟩
    · rintro failure ⟨⟩
      exact ⟨name, hName, repeated, rfl, hReach, hCycle⟩
    · intro hAcyclic
      exact absurd hCycle (hAcyclic name hName repeated hReach)
  | ok records =>
    rw [hRecords] at hSpec
    refine ⟨⟨?_, ?_⟩, ?_, fun _ => ⟨records, rfl, hSpec.1⟩⟩
    · rintro ⟨name, ⟨⟩⟩
    · rintro ⟨name, hName, repeated, hReach, hCycle⟩
      exact absurd hCycle (acyclicFrom_of_records hRecords name hName repeated hReach)
    · rintro failure ⟨⟩

/-- A dump that declares one class and lets two modules of the core include each other. -/
def mutualCoreDump : String :=
  "include Comparable Enumerable\ninclude Enumerable Comparable\nclass Word String"

/-- The table of that dump. -/
def mutualCore : DeclarationTable where
  known := ((OrderedMap.ofList core).insert "Comparable"
      { kind := .mixin, includes := [["Enumerable"]] }).insert "Enumerable"
      { kind := .mixin, includes := [["Comparable"]] } |>.insert "Word"
      { kind := .ordinary, superclass := some "String" }
  declared := ["Word"]

/-- The cycle is reached through names of the core only, and `Word` does not lie on it. -/
theorem linearize_eq_cycle_iff_mutualCore :
    ofDump mutualCoreDump = .ok mutualCore ∧
      ∃ name, linearize mutualCoreDump = .error (.cycle name) ∧
        TransGen mutualCore.Refers name name := by
  have hDump : ofDump mutualCoreDump = .ok mutualCore := rfl
  obtain ⟨-, hIff, hRepeated, -⟩ := linearize_eq_cycle_iff mutualCoreDump mutualCore hDump
  have hWord : mutualCore.Refers "Word" "String" := ⟨_, rfl, by decide +kernel⟩
  have hString : mutualCore.Refers "String" "Comparable" := ⟨_, rfl, by decide +kernel⟩
  have hThere : mutualCore.Refers "Comparable" "Enumerable" := ⟨_, rfl, by decide +kernel⟩
  have hBack : mutualCore.Refers "Enumerable" "Comparable" := ⟨_, rfl, by decide +kernel⟩
  obtain ⟨name, hFails⟩ := hIff.2 ⟨"Word", List.mem_singleton_self _, "Comparable",
    .tail (.single hWord) hString, .tail (.single hThere) hBack⟩
  obtain ⟨-, -, repeated, hName, -, hCycle⟩ := hRepeated _ hFails
  cases hName
  exact ⟨hDump, name, hFails, hCycle⟩

end Lineage.DeclarationTable
