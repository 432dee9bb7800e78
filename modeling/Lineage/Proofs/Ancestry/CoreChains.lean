/-
  What a project can do to the core.

  A dump says nothing new of a core class by opening it again: the superclass that the core gives it
  stays, and a module stays a module.  So as long as nothing is mixed into the core, the table knows
  of each core name what the core knows of it (`keepsCore_of_addAll`).

  That is not all that a chain depends on.  A module that the core includes is looked up like any
  other, first inside the class that includes it, and there a project may declare a name of its own:
  where there is an `Object::Kernel`, the chain of `Object` has it in the place of `Kernel`, and so
  has every chain that ends with that of `Object` (`not_forall_core_chains_kept`).  The names that
  CAPTURE a reference of the core in this way are few, and they are all that matters: the chain of a
  core name is the one that the core alone gives it exactly if no class on that chain has one of its
  references captured.

  For the one direction the two tables are compared where the chain goes (`Expands.of_agrees`), for
  the other a captured reference is followed out of the core.
-/
import Lineage.Proofs.Ancestry.Language

namespace Lineage

/-! ## Facts that tell nothing new -/

/-- A class that has a superclass, or can have none, is not changed by a declaration. -/
theorem Revision.eq_of_declares {d after : Declaration} {fact : Fact}
    (hRevision : Revision (some d) fact after) (hDeclares : fact.declares = true)
    (hSettled : d.kind = .ordinary → d.superclass ≠ none) : after = d := by
  cases hRevision with
  | classAgain | moduleAgain => rfl
  | @inherits name written _ hKind hAgrees =>
    obtain ⟨other, hOther⟩ := Option.ne_none_iff_exists'.1 (hSettled hKind)
    rw [hAgrees other hOther] at hOther
    rw [← hOther]
  | includes | prepends => cases hDeclares

/-- A class that is settled is not changed by any number of declarations. -/
theorem Revisions.eq_of_declares {d : Declaration} {facts : List Fact} {last : Option Declaration}
    (hRevisions : Revisions (some d) facts last) (hDeclare : ∀ fact ∈ facts, fact.declares = true)
    (hSettled : d.kind = .ordinary → d.superclass ≠ none) : last = some d := by
  -- On the facts: each leaves the declaration as it is, so the next one meets the same.
  induction facts with
  | nil => exact hRevisions.eq_of_nil
  | cons fact rest ih =>
    obtain ⟨hFact, hRest⟩ := List.forall_mem_cons.1 hDeclare
    cases hRevisions with
    | cons hFirst hLater =>
      rw [hFirst.eq_of_declares hFact hSettled] at hLater
      exact ih hLater hRest

namespace DeclarationTable

open Relation

variable {table other : DeclarationTable} {name : String} {d : Declaration}

/-! ## Tables that agree along a chain -/

/-- Both tables know the same of the name, and understand what it refers to in the same way. -/
structure AgreesAt (table other : DeclarationTable) (name : String) : Prop where
  known : table.known.get? name = other.known.get? name
  prepends : ∀ d, table.known.get? name = some d →
    table.latestFirst name d.prepends = other.latestFirst name d.prepends
  includes : ∀ d, table.known.get? name = some d →
    table.latestFirst name d.includes = other.latestFirst name d.includes
  superclass : ∀ d, table.known.get? name = some d →
    table.superclassOf name d = other.superclassOf name d

/-- **Tables that agree on all names that are reached** make the same of them. -/
theorem Expands.of_agrees {names expansion : List String} (hExpands : table.Expands names expansion)
    (hAgrees : ∀ name ∈ expansion, AgreesAt table other name) : other.Expands names expansion := by
  induction hExpands with
  | nil => exact .nil
  | @unknown name rest others hUnknown _ ih =>
    obtain ⟨hName, hRest⟩ := List.forall_mem_cons.1 hAgrees
    exact .unknown (hName.known ▸ hUnknown) (ih hRest)
  | @declared name d rest prepended included inherited others hKnown _ _ _ _ ihPrepended ihIncluded
      ihInherited ih =>
    simp only [List.forall_mem_append, List.forall_mem_cons] at hAgrees
    obtain ⟨⟨hPrepended, hName, hIncluded, hInherited⟩, hRest⟩ := hAgrees
    rw [hName.prepends d hKnown] at ihPrepended
    rw [hName.includes d hKnown] at ihIncluded
    rw [hName.superclass d hKnown] at ihInherited
    exact .declared (hName.known ▸ hKnown) (ihPrepended hPrepended) (ihIncluded hIncluded)
      (ihInherited hInherited) (ih hRest)

/-- So the chain of a name is the same in two tables that agree on the members of one of them. -/
theorem chainOf_of_agrees {linear : List String} (hChain : table.chainOf name = .ok linear)
    (hAgrees : ∀ reached ∈ linear, AgreesAt table other reached) :
    other.chainOf name = .ok linear := by
  obtain ⟨expansion, hExpands, rfl⟩ := chainOf_eq_ok_iff.1 hChain
  refine chainOf_eq_ok_iff.2 ⟨expansion, hExpands.of_agrees fun reached hReached => ?_, rfl⟩
  refine hAgrees reached ?_
  rwa [keepLast_eq_dedup, List.mem_dedup]

/-- Among the records of some names each name has one, with its chain. -/
theorem exists_record_of_mem {names : List String} {records : List AncestorRecord}
    (hRecords : table.records .empty names = .ok records) (hName : name ∈ names) :
    ∃ linear, ⟨name, linear⟩ ∈ records ∧ table.chainOf name = .ok linear := by
  have hSpec := records_spec table table.memoSound_empty names
  rw [hRecords] at hSpec
  obtain ⟨⟨_, linear⟩, hRecord, rfl⟩ := List.mem_map.1 (hSpec.1 ▸ hName)
  exact ⟨linear, hRecord, chainOf_of_mem_records hRecords hRecord⟩

/-- A name from which no cycle is reached has a chain. -/
theorem exists_chainOf_of_acyclicFrom (hAcyclic : table.AcyclicFrom [name]) :
    ∃ linear, table.chainOf name = .ok linear := by
  obtain ⟨records, hRecords⟩ := exists_records_of_acyclicFrom hAcyclic
  obtain ⟨linear, -, hLinear⟩ := exists_record_of_mem hRecords (List.mem_singleton_self name)
  exact ⟨linear, hLinear⟩

/-! ## The core by itself -/

/-- The names of the core. -/
def coreNames : List String := core.map Prod.fst

/-- The names that would be found in the place of the modules that the core includes in `name`. -/
def captors (name : String) : List String :=
  (initial.known.get? name).elim [] fun d => d.includes.flatten.map (Scope.qualify name)

example : coreNames.flatMap captors = ["Object::Kernel", "Numeric::Comparable",
    "String::Comparable", "Symbol::Comparable", "Array::Enumerable", "Hash::Enumerable"] := by
  decide

/-- What an entry of the core is like. -/
structure IsCoreEntry (name : String) (d : Declaration) : Prop where
  settled : d.kind = .ordinary → d.superclass ≠ none
  noPrepends : d.prepends = []
  outward : Scope.outward name = [name]
  around : Scope.around name = []
  captors : ∀ captor ∈ captors name, captor ∉ coreNames

instance (name : String) (d : Declaration) : Decidable (IsCoreEntry name d) :=
  decidable_of_iff ((d.kind = .ordinary → d.superclass ≠ none) ∧ d.prepends = [] ∧
      Scope.outward name = [name] ∧ Scope.around name = [] ∧
      ∀ captor ∈ captors name, captor ∉ coreNames)
    ⟨fun ⟨hSettled, hPrepends, hOutward, hAround, hCaptors⟩ =>
      ⟨hSettled, hPrepends, hOutward, hAround, hCaptors⟩, fun hEntry =>
      ⟨hEntry.settled, hEntry.noPrepends, hEntry.outward, hEntry.around, hEntry.captors⟩⟩

/-- Every entry of the core is as `IsCoreEntry` says; this is the one place where the core is read
    through. -/
theorem isCoreEntry : ∀ entry ∈ core, IsCoreEntry entry.1 entry.2 := by decide +kernel

/-- The core refers to itself only, and to what comes earlier in it. -/
theorem core_falls : ∀ entry ∈ core,
    ∀ next ∈ initial.before entry.1 entry.2 ++ initial.after entry.1 entry.2,
      next ∈ coreNames ∧ coreNames.idxOf next < coreNames.idxOf entry.1 := by
  decide +kernel

theorem mem_coreNames_iff : name ∈ coreNames ↔ ∃ d, (name, d) ∈ core := by
  simp [coreNames]

theorem mem_core_of_refers {next : String} (hRefers : initial.Refers name next) :
    next ∈ coreNames := by
  obtain ⟨d, hKnown, hNext⟩ := hRefers
  exact (core_falls (name, d) (get?_initial_eq_some_iff.1 hKnown) next hNext).1

/-- No chain of the core runs in a circle: the entries are written so that each refers to earlier
    ones only. -/
theorem acyclicFrom_initial (names : List String) : initial.AcyclicFrom names :=
  acyclicFrom_of_rank (fun name => coreNames.idxOf name)
    (fun entry hEntry next hNext => (core_falls entry (entries_initial ▸ hEntry) next hNext).2)
    names

/-- A chain of the core stays in the core. -/
theorem mem_core_of_mem_chain {alone : List String} (hName : name ∈ coreNames)
    (hAlone : initial.chainOf name = .ok alone) : ∀ reached ∈ alone, reached ∈ coreNames := by
  intro reached hReached
  rcases ((mem_chainOf_iff hAlone).1 hReached).cases_tail with rfl | ⟨_, -, hRefers⟩
  · exact hName
  · exact mem_core_of_refers hRefers

/-! ## References of the core in other tables -/

/-- Where only one scope is open, a name inside it is found or nothing is. -/
theorem resolve_singleton (table : DeclarationTable) (scope reference : String) :
    table.resolve [scope] reference =
      if table.isKnown (Scope.qualify scope reference) then Scope.qualify scope reference
      else reference := by
  rw [resolve, Scope.resolve, List.map_singleton, List.find?_singleton]
  split <;> rfl

/-- The superclass of a core class is what the core writes. -/
theorem superclassOf_of_mem_core (table : DeclarationTable) (hEntry : (name, d) ∈ core) :
    table.superclassOf name d = d.superclassOrDefault := by
  have hAsWritten : ∀ written, table.resolve (Scope.around name) written = written := by
    intro written
    rw [(isCoreEntry _ hEntry).around]
    rfl
  rw [superclassOf]
  simp only [hAsWritten, ite_self, Option.map_id_fun', id]

/-- A captor is a name by which a reference of the core entry is qualified. -/
theorem mem_captors_iff (hEntry : (name, d) ∈ core) {captor : String} :
    captor ∈ captors name ↔
      ∃ reference ∈ d.includes.flatten, Scope.qualify name reference = captor := by
  rw [captors, get?_initial_eq_some_iff.2 hEntry, Option.elim_some, List.mem_map]

/-- A module that the core includes is found where the core has it, unless it is captured. -/
theorem resolve_of_free (hEntry : (name, d) ∈ core) {reference : String}
    (hReference : reference ∈ d.includes.flatten)
    (hFree : ∀ captor ∈ captors name, table.isKnown captor = false) :
    table.resolve (Scope.outward name) reference = reference := by
  have hCaptor := hFree _ ((mem_captors_iff hEntry).2 ⟨reference, hReference, rfl⟩)
  rw [(isCoreEntry _ hEntry).outward, resolve_singleton, if_neg (by simp [hCaptor])]

/-- The core knows none of the names that would capture its references. -/
theorem isKnown_captor_initial (hEntry : (name, d) ∈ core) :
    ∀ captor ∈ captors name, initial.isKnown captor = false := by
  intro captor hCaptor
  rw [← Bool.not_eq_true, isKnown, OrderedMap.contains_iff]
  exact (isCoreEntry _ hEntry).captors captor hCaptor

/-- Where nothing stands in the place of a core module, the references mean what is written. -/
theorem latestFirst_of_free (hEntry : (name, d) ∈ core)
    (hFree : ∀ captor ∈ captors name, table.isKnown captor = false) :
    table.latestFirst name d.includes = d.includes.reverse.flatten := by
  rw [latestFirst, List.flatMap_def]
  congr 1
  refine (List.map_congr_left fun call hCall => ?_).trans (List.map_id _)
  refine (List.map_congr_left fun reference hReference => ?_).trans (List.map_id _)
  exact resolve_of_free hEntry
    (List.mem_flatten.2 ⟨call, List.mem_reverse.1 hCall, hReference⟩) hFree

/-- **Where nothing is captured**, a table that knows a core name as the core does agrees with the
    core there. -/
theorem agreesAt_of_free (hEntry : (name, d) ∈ core) (hKnown : table.known.get? name = some d)
    (hFree : ∀ captor ∈ captors name, table.isKnown captor = false) :
    AgreesAt initial table name := by
  have hInitial := get?_initial_eq_some_iff.2 hEntry
  constructor
  case known => rw [hInitial, hKnown]
  all_goals
    intro d' hKnown'
    obtain rfl : d = d' := Option.some.inj (hInitial.symm.trans hKnown')
  case prepends => rw [(isCoreEntry _ hEntry).noPrepends, latestFirst, latestFirst]; rfl
  case includes =>
    rw [latestFirst_of_free hEntry hFree,
      latestFirst_of_free hEntry (isKnown_captor_initial hEntry)]
  case superclass => rw [superclassOf_of_mem_core _ hEntry, superclassOf_of_mem_core _ hEntry]

/-- A captured reference leads out of the core. -/
theorem refers_captor (hEntry : (name, d) ∈ core) (hKnown : table.known.get? name = some d)
    {captor : String} (hCaptor : captor ∈ captors name) (hCaptures : table.isKnown captor = true) :
    table.Refers name captor := by
  obtain ⟨reference, hReference, rfl⟩ := (mem_captors_iff hEntry).1 hCaptor
  refine ⟨d, hKnown, List.mem_append_right _ (List.mem_append_left _ ?_)⟩
  refine List.mem_map.2 ⟨reference, by simpa using hReference, ?_⟩
  rw [(isCoreEntry _ hEntry).outward, resolve_singleton, if_pos hCaptures]

/-- **References of a core name** lead where they lead in the core, or to a name that captures one
    of them. -/
theorem refers_initial_or (hEntry : (name, d) ∈ core) (hKnown : table.known.get? name = some d)
    {next : String} (hRefers : table.Refers name next) :
    initial.Refers name next ∨ next ∈ captors name ∧ table.isKnown next = true := by
  have hInitial := get?_initial_eq_some_iff.2 hEntry
  obtain ⟨d', hKnown', hNext⟩ := hRefers
  obtain rfl : d = d' := Option.some.inj (hKnown.symm.trans hKnown')
  rw [before, mixedIn, (isCoreEntry _ hEntry).noPrepends, after, List.mem_append,
    List.mem_append] at hNext
  rcases hNext with hNothing | hIncluded | hSuperclass
  · cases hNothing
  · obtain ⟨reference, hReference, rfl⟩ := List.mem_map.1 hIncluded
    have hWritten : reference ∈ d.includes.flatten := by simpa using hReference
    rw [(isCoreEntry _ hEntry).outward, resolve_singleton]
    split
    · rename_i hCaptures
      exact .inr ⟨(mem_captors_iff hEntry).2 ⟨reference, hWritten, rfl⟩, hCaptures⟩
    · have hSame := resolve_of_free hEntry hWritten (isKnown_captor_initial hEntry)
      refine .inl ⟨d, hInitial, List.mem_append_right _ (List.mem_append_left _ ?_)⟩
      exact List.mem_map.2 ⟨reference, hReference, hSame⟩
  · rw [superclassOf_of_mem_core _ hEntry, ← superclassOf_of_mem_core initial hEntry] at hSuperclass
    exact .inl ⟨d, hInitial, List.mem_append_right _ (List.mem_append_right _ hSuperclass)⟩

/-! ## Tables that keep the core -/

/-- The table knows of the core names what the core knows. -/
def KeepsCore (table : DeclarationTable) : Prop :=
  ∀ entry ∈ core, table.known.get? entry.1 = some entry.2

/-- **A dump that mixes nothing into the core keeps it.** -/
theorem keepsCore_of_addAll {facts : List Fact} (hTable : initial.addAll facts = some table)
    (hTargets : ∀ fact ∈ facts, fact.declares = false → fact.subject ∉ coreNames) :
    table.KeepsCore := by
  rintro ⟨name, d⟩ hEntry
  have hRevisions := revisions_of_addAll hTable name
  rw [get?_initial_eq_some_iff.2 hEntry] at hRevisions
  refine hRevisions.eq_of_declares (fun fact hAbout => ?_) (isCoreEntry _ hEntry).settled
  obtain ⟨hFact, hSubject⟩ := List.mem_filter.1 hAbout
  by_contra hMixin
  refine hTargets fact hFact (Bool.not_eq_true _ ▸ hMixin) ?_
  rw [of_decide_eq_true hSubject]
  exact mem_coreNames_iff.2 ⟨d, hEntry⟩

/-- Outside of the core the declared names are the known ones. -/
theorem isKnown_iff_mem_declared {facts : List Fact} (hTable : initial.addAll facts = some table)
    (hOutside : name ∉ coreNames) : table.isKnown name = true ↔ name ∈ table.declared := by
  have hInitial : name ∉ initial.declared := List.not_mem_nil
  rw [isKnown_iff_names hTable, names_iff, (declared_of_addAll hTable).2, ← mem_coreNames_iff,
    or_iff_right hOutside, or_iff_right hInitial]
  simp only [and_comm]

/-- What is reached from a core name is reached inside the core, or through a name that captures a
    reference of the core. -/
theorem reaches_initial_or (hKeeps : table.KeepsCore) (hName : name ∈ coreNames) {reached : String}
    (hReach : ReflTransGen table.Refers name reached) :
    (ReflTransGen initial.Refers name reached ∧ reached ∈ coreNames) ∨
      ∃ holder ∈ coreNames, ∃ captor ∈ captors holder, table.isKnown captor = true ∧
        ReflTransGen table.Refers captor reached := by
  induction hReach with
  | refl => exact .inl ⟨.refl, hName⟩
  | @tail middle next _ hRefers ih =>
    rcases ih with ⟨hInside, hMiddle⟩ | ⟨holder, hHolder, captor, hCaptor, hCaptures, hOutside⟩
    · obtain ⟨d, hEntry⟩ := mem_coreNames_iff.1 hMiddle
      rcases refers_initial_or hEntry (hKeeps _ hEntry) hRefers with hInitial | ⟨hCaptor, hCaptures⟩
      · exact .inl ⟨hInside.tail hInitial, mem_core_of_refers hInitial⟩
      · exact .inr ⟨middle, hMiddle, next, hCaptor, hCaptures, .refl⟩
    · exact .inr ⟨holder, hHolder, captor, hCaptor, hCaptures, hOutside.tail hRefers⟩

/-- **The core leads into a cycle only by way of a name that captures one of its references.** -/
theorem acyclicFrom_of_mem_core (hKeeps : table.KeepsCore) (hName : name ∈ coreNames)
    (hCaptors : ∀ holder ∈ coreNames, ∀ captor ∈ captors holder, table.isKnown captor = true →
      table.AcyclicFrom [captor]) : table.AcyclicFrom [name] := by
  intro start hStart repeated hReach hCycle
  obtain rfl := List.mem_singleton.1 hStart
  have hOutside : ∀ holder ∈ coreNames, ∀ captor ∈ captors holder, table.isKnown captor = true →
      ¬ ReflTransGen table.Refers captor repeated := by
    intro holder hHolder captor hCaptor hCaptures hTo
    exact hCaptors holder hHolder captor hCaptor hCaptures captor (List.mem_singleton_self _)
      repeated hTo hCycle
  rcases reaches_initial_or hKeeps hName hReach with ⟨-, hRepeated⟩ |
    ⟨holder, hHolder, captor, hCaptor, hCaptures, hTo⟩
  · -- The cycle is left by a reference of a core name.
    obtain ⟨next, hRefers, hBack⟩ := TransGen.head'_iff.1 hCycle
    obtain ⟨d, hEntry⟩ := mem_coreNames_iff.1 hRepeated
    rcases refers_initial_or hEntry (hKeeps _ hEntry) hRefers with hInitial | ⟨hCaptor, hCaptures⟩
    · rcases reaches_initial_or hKeeps (mem_core_of_refers hInitial) hBack with ⟨hInside, -⟩ |
        ⟨holder, hHolder, captor, hCaptor, hCaptures, hTo⟩
      · exact acyclicFrom_initial [repeated] repeated (List.mem_singleton_self _) repeated .refl
          (.head' hInitial hInside)
      · exact hOutside holder hHolder captor hCaptor hCaptures hTo
    · exact hOutside repeated hRepeated next hCaptor hCaptures hBack
  · exact hOutside holder hHolder captor hCaptor hCaptures hTo

/-- **The chain of a core name stays what it is exactly if nothing on it is captured.** -/
theorem chainOf_eq_alone_iff (hKeeps : table.KeepsCore) (hName : name ∈ coreNames)
    {alone linear : List String} (hAlone : initial.chainOf name = .ok alone)
    (hLinear : table.chainOf name = .ok linear) :
    linear = alone ↔ ∀ holder ∈ alone, ∀ captor ∈ captors holder, table.isKnown captor = false := by
  constructor
  · rintro rfl holder hHolder captor hCaptor
    obtain ⟨d, hEntry⟩ := mem_coreNames_iff.1 (mem_core_of_mem_chain hName hAlone holder hHolder)
    by_contra hCaptures
    rw [Bool.not_eq_false] at hCaptures
    -- The captor would have to be a core name.
    have hReach := ((mem_chainOf_iff hLinear).1 hHolder).tail
      (refers_captor hEntry (hKeeps _ hEntry) hCaptor hCaptures)
    exact (isCoreEntry _ hEntry).captors captor hCaptor
      (mem_core_of_mem_chain hName hAlone captor ((mem_chainOf_iff hLinear).2 hReach))
  · intro hFree
    have hSame : table.chainOf name = .ok alone := by
      refine chainOf_of_agrees hAlone fun reached hReached => ?_
      obtain ⟨d, hEntry⟩ :=
        mem_coreNames_iff.1 (mem_core_of_mem_chain hName hAlone reached hReached)
      exact agreesAt_of_free hEntry (hKeeps _ hEntry) (hFree reached hReached)
    exact Except.ok.inj (hLinear.symm.trans hSame)

/-! ## Dumps -/

/-- **What a project does to the core.**  In a dump that linearizes and mixes nothing into the core,
    every core name has a chain.  It is the one that the core alone gives it if no class on that one
    has the name of a module that the core includes in it declared inside, whatever else is declared
    inside of core names; and it is another one otherwise. -/
theorem core_chains_kept (dump : String) (records : List AncestorRecord)
    (hLinearize : linearize dump = .ok records)
    (hTargets : ∀ fact ∈ facts dump, fact.declares = false → fact.subject ∉ coreNames) :
    ∃ table, ofDump dump = .ok table ∧
      (∀ record ∈ records, table.chainOf record.name = .ok record.ancestors) ∧
      ∀ name ∈ coreNames, ∃ alone linear, initial.chainOf name = .ok alone ∧
        table.chainOf name = .ok linear ∧
        (linear = alone ↔
          ∀ holder ∈ alone, ∀ captor ∈ captors holder, captor ∉ table.declared) := by
  obtain ⟨table, hDump, hNames, hChains⟩ := exists_table_of_linearize hLinearize
  have hTable := addAll_of_ofDump hDump
  have hKeeps := keepsCore_of_addAll hTable hTargets
  have hDeclared : table.AcyclicFrom table.declared :=
    acyclicFrom_of_records ((linearize_of_ofDump hDump).symm.trans hLinearize)
  -- A captor is no core name, so that it is known can only come from the dump.
  have hCaptor : ∀ holder ∈ coreNames, ∀ captor ∈ captors holder,
      (table.isKnown captor = true ↔ captor ∈ table.declared) := by
    intro holder hHolder captor hCaptor
    obtain ⟨d, hEntry⟩ := mem_coreNames_iff.1 hHolder
    exact isKnown_iff_mem_declared hTable ((isCoreEntry _ hEntry).captors captor hCaptor)
  refine ⟨table, hDump, hChains, fun name hName => ?_⟩
  obtain ⟨alone, hAlone⟩ := exists_chainOf_of_acyclicFrom (acyclicFrom_initial [name])
  have hAcyclic := acyclicFrom_of_mem_core hKeeps hName
    fun holder hHolder captor hCaptorOf hCaptures start hStart =>
      hDeclared start (List.mem_singleton.1 hStart ▸
        (hCaptor holder hHolder captor hCaptorOf).1 hCaptures)
  -- The dump has been linearized, so its own names reach no cycle, and the core is safe through
  -- them.
  obtain ⟨linear, hLinear⟩ := exists_chainOf_of_acyclicFrom hAcyclic
  refine ⟨alone, linear, hAlone, hLinear, ?_⟩
  rw [chainOf_eq_alone_iff hKeeps hName hAlone hLinear]
  refine forall₂_congr fun holder hHolder => forall₂_congr fun captor hCaptorOf => ?_
  rw [← hCaptor holder (mem_core_of_mem_chain hName hAlone holder hHolder) captor hCaptorOf,
    Bool.not_eq_true]

/-- A dump that opens a core class, and declares names of the core inside of other names. -/
def reopenedDump : String :=
  "class String\nmodule String::Kernel\nmodule Page::Comparable\nclass Page\n" ++
    "include Page Comparable"

/-- What `reopenedDump` declares: every new name is out of the core's way. -/
def reopened : DeclarationTable where
  known := (OrderedMap.ofList core).insert "String::Kernel" { kind := .mixin }
    |>.insert "Page::Comparable" { kind := .mixin }
    |>.insert "Page" { kind := .ordinary, includes := [["Comparable"]] }
  declared := ["String", "String::Kernel", "Page::Comparable", "Page"]

theorem reopened_falls : ∀ entry ∈ reopened.known.entries,
    ∀ other ∈ reopened.before entry.1 entry.2 ++ reopened.after entry.1 entry.2,
      reopened.known.keys.idxOf other < reopened.known.keys.idxOf entry.1 := by
  decide +kernel

/-- The class of the core has the chain that it has without the dump. -/
theorem core_chains_kept_string : ∃ records ancestors, linearize reopenedDump = .ok records ∧
    (∀ fact ∈ facts reopenedDump, fact.declares = false → fact.subject ∉ coreNames) ∧
    initial.chainOf "String" = .ok ancestors ∧ ⟨"String", ancestors⟩ ∈ records := by
  have hDump : ofDump reopenedDump = .ok reopened := rfl
  obtain ⟨records, hRecords⟩ :=
    exists_records_of_acyclicFrom (acyclicFrom_of_rank _ reopened_falls reopened.declared)
  have hLinearize := (linearize_of_ofDump hDump).trans hRecords
  have hTargets : ∀ fact ∈ facts reopenedDump,
      fact.declares = false → fact.subject ∉ coreNames := by
    decide +kernel
  obtain ⟨table, hTable, hChains, hCore⟩ :=
    core_chains_kept reopenedDump records hLinearize hTargets
  obtain rfl : reopened = table := Except.ok.inj (hDump.symm.trans hTable)
  have hString : "String" ∈ coreNames := by decide
  obtain ⟨alone, linear, hAlone, hLinear, hKept⟩ := hCore "String" hString
  -- No captor of a core name is declared, and `String` keeps the chain that it has alone.
  have hSame : linear = alone := hKept.2 fun holder hHolder =>
    (by decide +kernel : ∀ holder ∈ coreNames, ∀ captor ∈ captors holder,
      captor ∉ reopened.declared) holder (mem_core_of_mem_chain hString hAlone holder hHolder)
  obtain ⟨ancestors, hRecord, -⟩ :=
    exists_record_of_mem hRecords (by decide : "String" ∈ reopened.declared)
  obtain rfl : ancestors = linear := Except.ok.inj ((hChains _ hRecord).symm.trans hLinear)
  exact ⟨records, ancestors, hLinearize, hTargets, hSame ▸ hAlone, hRecord⟩

/-- A dump that declares a name inside of a core class. -/
def capturedDump : String := "class Object\nmodule Object::Kernel\nclass User"

/-- What the dump that captures `Kernel` declares. -/
def captured : DeclarationTable where
  known := (OrderedMap.ofList core).insert "Object::Kernel" { kind := .mixin }
    |>.insert "User" { kind := .ordinary }
  declared := ["Object", "Object::Kernel", "User"]

theorem captured_falls : ∀ entry ∈ captured.known.entries,
    ∀ other ∈ captured.before entry.1 entry.2 ++ captured.after entry.1 entry.2,
      ("Object::Kernel" :: captured.known.keys).idxOf other <
        ("Object::Kernel" :: captured.known.keys).idxOf entry.1 := by
  decide +kernel

/-- **A core chain can change** without anything being mixed into the core. -/
theorem not_forall_core_chains_kept : ¬ ∀ (dump : String) (records : List AncestorRecord)
    (table : DeclarationTable), linearize dump = .ok records → ofDump dump = .ok table →
    (∀ fact ∈ facts dump, fact.declares = false → fact.subject ∉ coreNames) →
      ∀ name ∈ coreNames, table.chainOf name = initial.chainOf name := by
  intro hKept
  have hDump : ofDump capturedDump = .ok captured := rfl
  obtain ⟨records, hRecords⟩ :=
    exists_records_of_acyclicFrom (acyclicFrom_of_rank _ captured_falls captured.declared)
  have hTargets : ∀ fact ∈ facts capturedDump,
      fact.declares = false → fact.subject ∉ coreNames := by
    decide +kernel
  have hObject : "Object" ∈ coreNames := by decide
  have hSame := hKept capturedDump records captured ((linearize_of_ofDump hDump).trans hRecords)
    hDump hTargets "Object" hObject
  obtain ⟨alone, hAlone⟩ := exists_chainOf_of_acyclicFrom (acyclicFrom_initial ["Object"])
  have hFree := (chainOf_eq_alone_iff (keepsCore_of_addAll (addAll_of_ofDump hDump) hTargets)
    hObject hAlone (hSame.trans hAlone)).1 rfl
  exact absurd (hFree "Object" (mem_of_chainOf hAlone) "Object::Kernel" (by decide)) (by decide)

end DeclarationTable

end Lineage
