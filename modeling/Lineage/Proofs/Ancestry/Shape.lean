/-
  The shape of a chain.

  A chain is the expansion of its name with every name kept at its last place.  Keeping takes no
  name away altogether, and an expansion follows all references; so the names on a chain are those
  that can be REACHED from its name, each of them once (`mem_chainOf_iff`).  What can be reached
  from a known name is the name itself and what can be reached from its references
  (`reaches_singleton`), which is the recursion of the expansion.

  Which place a name is kept at depends on what comes behind it only.  The superclass comes last, so
  its own chain is the end of the chain, untouched.
-/
import Lineage.Proofs.Ancestry.Inheritance

namespace Lineage.DeclarationTable

open Relation

variable {table : DeclarationTable} {name : String} {linear : List String}

/-! ## What can be reached -/

/-- `other` is one of `names`, or references lead to it from one of them. -/
def Reaches (table : DeclarationTable) (names : List String) (other : String) : Prop :=
  ∃ name ∈ names, ReflTransGen table.Refers name other

theorem reaches_append {names more : List String} {other : String} :
    table.Reaches (names ++ more) other ↔ table.Reaches names other ∨ table.Reaches more other := by
  simp only [Reaches, List.mem_append, or_and_right, exists_or]

theorem reaches_cons {rest : List String} {other : String} :
    table.Reaches (name :: rest) other ↔ table.Reaches [name] other ∨ table.Reaches rest other :=
  @reaches_append table [name] rest other

/-- **One step**: a name is reached from a known name if it is that name, or is reached from one of
    its references. -/
theorem reaches_singleton {d : Declaration} (hKnown : table.known.get? name = some d)
    {other : String} : table.Reaches [name] other ↔
      other = name ∨ table.Reaches (table.before name d ++ table.after name d) other := by
  have hRefers : ∀ next, table.Refers name next ↔
      next ∈ table.before name d ++ table.after name d := by
    intro next
    constructor
    · rintro ⟨d', hKnown', hNext⟩
      obtain rfl : d = d' := Option.some.inj (hKnown.symm.trans hKnown')
      exact hNext
    · exact fun hNext => ⟨d, hKnown, hNext⟩
  simp only [Reaches, List.mem_singleton, exists_eq_left, ReflTransGen.cases_head_iff (a := name),
    hRefers, eq_comm (a := name)]

/-- From a name of which nothing is known nothing else is reached. -/
theorem reaches_of_unknown (hUnknown : table.known.get? name = none) {other : String} :
    table.Reaches [name] other ↔ other = name := by
  have hNowhere : ∀ next, ¬ table.Refers name next := by
    rintro next ⟨d, hKnown, -⟩
    rw [hUnknown] at hKnown
    cases hKnown
  simp only [Reaches, List.mem_singleton, exists_eq_left, ReflTransGen.cases_head_iff (a := name),
    hNowhere, false_and, exists_false, or_false, eq_comm (a := name)]

/-- **An expansion holds what its names reach**, no more and no less. -/
theorem Expands.mem_iff {names expansion : List String} (hExpands : table.Expands names expansion)
    {other : String} : other ∈ expansion ↔ table.Reaches names other := by
  induction hExpands with
  | nil => simp [Reaches]
  | unknown hUnknown _ ih => rw [List.mem_cons, reaches_cons, reaches_of_unknown hUnknown, ih]
  | declared hKnown _ _ _ _ ihPrepended ihIncluded ihInherited ih =>
    rw [reaches_cons, reaches_singleton hKnown, before, after, ← latestFirst_eq_mixedIn,
      ← latestFirst_eq_mixedIn, reaches_append, reaches_append, ← ihPrepended, ← ihIncluded,
      ← ihInherited, ← ih]
    simp only [List.mem_append, List.mem_cons]
    -- Only the place of the name itself is another: between the parts, and in front of them.
    rw [or_left_comm]

/-! ## Chains -/

/-- No chain has a name twice. -/
theorem nodup_of_chainOf (hChain : table.chainOf name = .ok linear) : linear.Nodup := by
  obtain ⟨expansion, -, rfl⟩ := chainOf_eq_ok_iff.1 hChain
  rw [keepLast_eq_dedup]
  exact List.nodup_dedup expansion

/-- **The names on a chain** are its own and all that references lead to from it. -/
theorem mem_chainOf_iff (hChain : table.chainOf name = .ok linear) {other : String} :
    other ∈ linear ↔ ReflTransGen table.Refers name other := by
  obtain ⟨expansion, hExpands, rfl⟩ := chainOf_eq_ok_iff.1 hChain
  rw [keepLast_eq_dedup, List.mem_dedup, hExpands.mem_iff, Reaches]
  simp only [List.mem_singleton, exists_eq_left]

/-- A class that has a superclass has its chain at the end of its own. -/
theorem exists_inherited_of_chainOf {d : Declaration} {written : String}
    (hKnown : table.known.get? name = some d) (hWritten : d.superclassOrDefault = some written)
    (hChain : table.chainOf name = .ok linear) :
    ∃ superclass inherited, table.superclassOf name d = some superclass ∧
      table.chainOf superclass = .ok inherited ∧ inherited <:+ linear := by
  obtain ⟨superclass, hSuperclass⟩ : ∃ superclass, table.superclassOf name d = some superclass := by
    rw [superclassOf, hWritten]
    exact ⟨_, rfl⟩
  obtain ⟨inherited, hInherited, hSuffix⟩ := exists_suffix_of_chainOf hKnown hSuperclass hChain
  exact ⟨superclass, inherited, hSuperclass, hInherited, hSuffix⟩

/-- A dump that linearizes has a table, and its records are the chains of the names that are
    declared there. -/
theorem exists_table_of_linearize {dump : String} {records : List AncestorRecord}
    (hLinearize : linearize dump = .ok records) :
    ∃ table, ofDump dump = .ok table ∧ records.map (·.name) = table.declared ∧
      ∀ record ∈ records, table.chainOf record.name = .ok record.ancestors := by
  cases hDump : ofDump dump with
  | error failure =>
    rw [linearize, hDump] at hLinearize
    cases hLinearize
  | ok table =>
    rw [linearize_of_ofDump hDump] at hLinearize
    have hSpec := records_spec table table.memoSound_empty table.declared
    rw [hLinearize] at hSpec
    exact ⟨table, rfl, hSpec.1, fun record hRecord => chainOf_of_mem_records hLinearize hRecord⟩

/-- **The shape of every chain** in a dump that linearizes.  Each declared name has its chain, in
    which no name comes twice and its own comes once.  The names on it are the declared name and all
    that included and prepended modules and superclasses lead to from it.  If a superclass is given,
    or `Object` stands in for it, the whole chain of the class it resolves to is the end of the
    chain, in the same order. -/
theorem linearize_shape (dump : String) (records : List AncestorRecord)
    (hLinearize : linearize dump = .ok records) :
    ∃ table, ofDump dump = .ok table ∧ records.map (·.name) = table.declared ∧
      ∀ record ∈ records, table.chainOf record.name = .ok record.ancestors ∧
        record.ancestors.Nodup ∧ record.ancestors.count record.name = 1 ∧
        (∀ other, other ∈ record.ancestors ↔ ReflTransGen table.Refers record.name other) ∧
        ∀ d written, table.known.get? record.name = some d → d.superclassOrDefault = some written →
          ∃ superclass inherited, table.superclassOf record.name d = some superclass ∧
            table.chainOf superclass = .ok inherited ∧ inherited <:+ record.ancestors := by
  obtain ⟨table, hDump, hNames, hChains⟩ := exists_table_of_linearize hLinearize
  refine ⟨table, hDump, hNames, fun record hRecord => ?_⟩
  have hChain := hChains record hRecord
  have hNodup := nodup_of_chainOf hChain
  exact ⟨hChain, hNodup, List.count_eq_one_of_mem hNodup (mem_of_chainOf hChain),
    fun _ => mem_chainOf_iff hChain,
    fun _ _ hKnown hWritten => exists_inherited_of_chainOf hKnown hWritten hChain⟩

/-- A class that prepends a module which its superclass includes already. -/
def boxDump : String :=
  "module Box\nclass Base\ninclude Base Box\nclass Page Base\nprepend Page Box"

/-- A class with a superclass and a prepended module. -/
def boxPage : Declaration where
  kind := .ordinary
  superclass := some "Base"
  prepends := [["Box"]]

/-- What `boxDump` declares: `Box` is mixed in twice, by the class and above it. -/
def box : DeclarationTable where
  known := (OrderedMap.ofList core).insert "Box" { kind := .mixin }
    |>.insert "Base" { kind := .ordinary, includes := [["Box"]] } |>.insert "Page" boxPage
  declared := ["Box", "Base", "Page"]

/-- A name refers only to names before it. -/
theorem box_falls : ∀ entry ∈ box.known.entries,
    ∀ other ∈ box.before entry.1 entry.2 ++ box.after entry.1 entry.2,
      box.known.keys.idxOf other < box.known.keys.idxOf entry.1 := by
  decide +kernel

/-- The module is prepended, but stands where the superclass has it. -/
theorem linearize_shape_box : ofDump boxDump = .ok box ∧ ∃ records ancestors inherited,
    linearize boxDump = .ok records ∧ ⟨"Page", ancestors⟩ ∈ records ∧
      box.before "Page" boxPage = ["Box"] ∧ box.superclassOf "Page" boxPage = some "Base" ∧
      box.chainOf "Base" = .ok inherited ∧ "Box" ∈ inherited ∧ inherited <:+ ancestors ∧
      ancestors.Nodup := by
  have hDump : ofDump boxDump = .ok box := rfl
  have hAcyclic := acyclicFrom_of_rank _ box_falls box.declared
  obtain ⟨records, hRecords⟩ := exists_records_of_acyclicFrom hAcyclic
  have hLinearize := (linearize_of_ofDump hDump).trans hRecords
  obtain ⟨table, hTable, hNames, hShape⟩ := linearize_shape boxDump records hLinearize
  obtain rfl : box = table := Except.ok.inj (hDump.symm.trans hTable)
  have hDeclared : "Page" ∈ records.map (·.name) := by
    rw [hNames]
    decide
  obtain ⟨⟨name, ancestors⟩, hRecord, hName⟩ := List.mem_map.1 hDeclared
  obtain rfl : name = "Page" := hName
  obtain ⟨-, hNodup, -, -, hInherits⟩ := hShape _ hRecord
  obtain ⟨superclass, inherited, hSuperclass, hInherited, hSuffix⟩ :=
    hInherits boxPage "Base" rfl rfl
  have hBase : box.superclassOf "Page" boxPage = some "Base" := by decide +kernel
  obtain rfl : superclass = "Base" := Option.some.inj (hSuperclass.symm.trans hBase)
  -- `Box` is prepended to the class and included above it; by the suffix it stays above.
  have hBox : box.Refers "Base" "Box" := ⟨_, rfl, by decide +kernel⟩
  exact ⟨hDump, records, ancestors, inherited, hLinearize, hRecord, by decide +kernel, hBase,
    hInherited, (mem_chainOf_iff hInherited).2 (.single hBox), hSuffix, hNodup⟩

end Lineage.DeclarationTable
