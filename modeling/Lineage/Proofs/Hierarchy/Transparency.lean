/-
  A hierarchy cache answers as if it kept no answers.

  The specification is the UNCACHED hierarchy.  Of a generation it knows its source and how the
  loads of that source have ended so far; the table is that of the first load that brought one.  A
  query loads as long as there is no table, and then puts its answer together from the table and
  the members of the classes on the chain.  No answer is kept, and a new generation starts with no
  loads: nothing of the generation before can come into an answer.

  The cache keeps table and answers in two flight maps instead.  The invariant (`Mirrors`) ties them
  to the uncached hierarchy with the same history:

      the table that is kept is the uncached table, and
      every answer that is kept is the one that THIS table gives.

  A query keeps it because the table, once there, stays until the generation ends; a new
  generation because both maps are emptied together.
-/
import Lineage.Proofs.Hierarchy.Run

namespace Lineage

/-! ## The uncached hierarchy -/

/-- A machine without memo: it keeps how its loads ended, and no answers. -/
structure Uncached where
  source : AncestorSource
  disposed : Bool := false
  /-- How the loads of this generation ended, the first one first. -/
  loads : List (Outcome AncestorTable ExtractionFailure) := []

namespace Uncached

/-- The table of the first load that brought one. -/
def table (uncached : Uncached) : Option AncestorTable := uncached.loads.findSome? Outcome.value?

/-- Ask for the table, with another load if none has brought it yet. -/
def ask (uncached : Uncached) : Outcome AncestorTable ExtractionFailure × Uncached :=
  match uncached.table with
  | some table => (.value table, uncached)
  | none =>
    (uncached.source.load.1,
      { uncached with
        source := uncached.source.load.2
        loads := uncached.loads ++ [uncached.source.load.1] })

/-- The members of a class by the table that is asked for now. -/
def found (uncached : Uncached) (members : String → List MethodDescriptor) (className : String)
    (root : RootScope) : Outcome (List Symbol) ExtractionFailure :=
  match uncached.ask.1 with
  | .value table => .value (table.symbols members className root)
  | .failure error => .failure error
  | .crash => .crash

/-- **The uncached answer.**  Without a table there are no members; `none` if the load crashes. -/
def answer (uncached : Uncached) (members : String → List MethodDescriptor) (className : String)
    (root : RootScope) : Option (List Symbol) :=
  if uncached.disposed then some []
  else HierarchyCache.answerOf (uncached.found members className root)

/-- What one step makes of the machine. -/
def perform (uncached : Uncached) : CacheStep → Uncached
  | .query _ _ => if uncached.disposed then uncached else uncached.ask.2
  | .invalidate => { uncached with loads := [] }
  | .setSource source => { uncached with source, loads := [] }
  | .dispose => { uncached with disposed := true, loads := [] }

/-- What several steps make of the machine. -/
def performAll (uncached : Uncached) (steps : List CacheStep) : Uncached :=
  steps.foldl perform uncached

/-- Asking leaves the table that it comes to. -/
theorem table_ask (uncached : Uncached) : uncached.ask.2.table = uncached.ask.1.value? := by
  cases hTable : uncached.table with
  | some table => simp only [ask, hTable, Outcome.value?]
  | none =>
    have hNone : uncached.loads.findSome? Outcome.value? = none := hTable
    simp [ask, table, List.findSome?_append, hNone]

/-- A table that is there is what asking comes to. -/
theorem ask_of_table {uncached : Uncached} {table : AncestorTable}
    (hTable : uncached.table = some table) : uncached.ask = (.value table, uncached) := by
  simp only [ask, hTable]

theorem ask_of_no_table {uncached : Uncached} (hTable : uncached.table = none) :
    uncached.ask = (uncached.source.load.1,
      { uncached with
        source := uncached.source.load.2
        loads := uncached.loads ++ [uncached.source.load.1] }) := by
  simp only [ask, hTable]

/-- Members that are found are those of the table, which stays. -/
theorem table_of_found {uncached : Uncached} {members : String → List MethodDescriptor}
    {className : String} {root : RootScope} {symbols : List Symbol}
    (hFound : (uncached.found members className root).value? = some symbols) :
    ∃ table, uncached.ask.2.table = some table ∧
      symbols = table.symbols members className root := by
  rw [found] at hFound
  rw [table_ask]
  cases hAsk : uncached.ask.1 with
  | value table =>
    rw [hAsk] at hFound
    cases hFound
    exact ⟨table, rfl, rfl⟩
  | failure _ | crash =>
    rw [hAsk] at hFound
    cases hFound

/-! ### Records that are there already -/

/-- If the source has its records, the table is the table of these records. -/
def OfRecords (uncached : Uncached) : Prop :=
  ∀ records, uncached.source = .materialized records →
    ∀ table, uncached.table = some table → table = .ofRecords records

/-- Records that are there already make one and the same table at every load. -/
theorem ask_of_materialized {uncached : Uncached} (hOfRecords : uncached.OfRecords)
    {records : List AncestorRecord} (hSource : uncached.source = .materialized records) :
    uncached.ask.1 = .value (.ofRecords records) := by
  cases hTable : uncached.table with
  | some table => rw [ask_of_table hTable, hOfRecords records hSource table hTable]
  | none => rw [ask_of_no_table hTable, hSource, AncestorSource.load]

/-- A table that was asked for is one of records. -/
theorem ofRecords_ask {uncached : Uncached} (hOfRecords : uncached.OfRecords) :
    uncached.ask.2.OfRecords := by
  intro records hSource table hTable
  have hBefore : uncached.source = .materialized records := by
    cases hKept : uncached.table with
    | some kept => rwa [ask_of_table hKept] at hSource
    | none =>
      -- A load leaves the source of the kind that it was.
      rw [ask_of_no_table hKept] at hSource
      dsimp only at hSource
      cases hKind : uncached.source with
      | materialized present => rwa [hKind] at hSource
      | extractor strategy console project interpreter =>
        rw [hKind] at hSource
        cases interpreter <;> cases hSource
  rw [table_ask, ask_of_materialized hOfRecords hBefore] at hTable
  cases hTable
  rfl

/-- All that is loaded stays made of records, through any number of steps. -/
theorem ofRecords_performAll {uncached : Uncached} (hOfRecords : uncached.OfRecords)
    (steps : List CacheStep) : (uncached.performAll steps).OfRecords := by
  induction steps generalizing uncached with
  | nil => exact hOfRecords
  | cons step rest ih =>
    refine ih ?_
    cases step with
    | query className root =>
      rw [perform]
      split
      · exact hOfRecords
      · exact ofRecords_ask hOfRecords
    | invalidate | setSource _ | dispose =>
      -- A new generation has no table yet.
      intro records hSource table hTable
      cases hTable

end Uncached

/-! ## The invariant -/

/-- **The cache mirrors the uncached hierarchy**: they have the same source, the table that is kept
    is the uncached one, and all answers that are kept are made from it. -/
structure HierarchyCache.Mirrors (cache : HierarchyCache)
    (members : String → List MethodDescriptor) (uncached : Uncached) : Prop where
  source : cache.source = uncached.source
  disposed : cache.disposed = uncached.disposed
  provided : cache.provider.members = members
  tableSettled : cache.table.Settled
  entriesSettled : cache.entries.Settled
  table : cache.table.get? () = uncached.table
  entries : ∀ className root symbols, cache.entries.get? (className, root) = some symbols →
    ∃ table, uncached.table = some table ∧ symbols = table.symbols members className root

namespace HierarchyCache

variable {cache : HierarchyCache} {members : String → List MethodDescriptor} {uncached : Uncached}

/-- Both start a generation with nothing kept. -/
theorem mirrors_reset {source : AncestorSource} {disposed : Bool} (hSource : cache.source = source)
    (hDisposed : cache.disposed = disposed) (hProvided : cache.provider.members = members) :
    cache.reset.Mirrors members { source, disposed } where
  source := hSource
  disposed := hDisposed
  provided := hProvided
  tableSettled := cache.table.settled_clear
  entriesSettled := cache.entries.settled_clear
  table := rfl
  entries := by
    intro className root symbols hEntry
    cases hEntry

/-- A fresh cache mirrors a machine that has loaded nothing. -/
theorem mirrors_fresh (module : ModuleId) (source : AncestorSource) (provider : MemberProvider) :
    (fresh module source provider).Mirrors provider.members { source } where
  source := rfl
  disposed := rfl
  provided := rfl
  tableSettled := FlightMap.settled_empty
  entriesSettled := FlightMap.settled_empty
  table := rfl
  entries := by
    intro className root symbols hEntry
    cases hEntry

namespace Mirrors

/-- **Both ask for the table with the same outcome.** -/
theorem ancestorTable (hMirrors : cache.Mirrors members uncached) :
    ∃ after, cache.ancestorTable = (uncached.ask.1, after) ∧ after.provider = cache.provider ∧
      after.Mirrors members uncached.ask.2 := by
  -- Either both have the table, or both load it from the same source.
  cases hTable : uncached.table with
  | some table =>
    rw [Uncached.ask_of_table hTable]
    exact ⟨cache, ancestorTable_of_get?_eq_some (hMirrors.table.trans hTable), rfl, hMirrors⟩
  | none =>
    obtain ⟨table, hLoad, hSettled, hGet⟩ :=
      ancestorTable_of_get?_eq_none hMirrors.tableSettled (hMirrors.table.trans hTable)
    have hAsk : uncached.ask.1 = cache.source.load.1 := by
      rw [Uncached.ask_of_no_table hTable, hMirrors.source]
    rw [hAsk]
    refine ⟨_, hLoad, rfl, ?_⟩
    refine
      { source := ?_
        disposed := ?_
        provided := hMirrors.provided
        tableSettled := hSettled
        entriesSettled := hMirrors.entriesSettled
        table := ?_
        entries := ?_ }
    · rw [Uncached.ask_of_no_table hTable, hMirrors.source]
    · rw [Uncached.ask_of_no_table hTable, hMirrors.disposed]
    · rw [Uncached.table_ask, hAsk]
      exact hGet
    · -- Nothing can have been kept without a table.
      intro className root symbols hEntry
      obtain ⟨kept, hKept, -⟩ := hMirrors.entries className root symbols hEntry
      rw [hTable] at hKept
      cases hKept

/-- **Members are found as without a cache**, unless the provider crashes on the chain. -/
theorem resolveMembers (hMirrors : cache.Mirrors members uncached) (className : String)
    (root : RootScope) :
    ∃ outcome after, cache.resolveMembers className root = (outcome, after) ∧
      after.Mirrors members uncached.ask.2 ∧
      (outcome = uncached.found members className root ∨
        outcome = .crash ∧ ∃ table chain, uncached.ask.1 = .value table ∧
          table.get? className = some chain ∧ cache.provider.CrashesOn chain) := by
  obtain ⟨after, hAsk, hProvider, hAfter⟩ := hMirrors.ancestorTable
  -- The two differ in one case: the provider may crash on the chain.
  cases hOutcome : uncached.ask.1 with
  | failure error =>
    rw [hOutcome] at hAsk
    refine ⟨_, _, resolveMembers_of_failure hAsk, hAfter, .inl ?_⟩
    rw [Uncached.found, hOutcome]
  | crash =>
    rw [hOutcome] at hAsk
    refine ⟨_, _, resolveMembers_of_crash hAsk, hAfter, .inl ?_⟩
    rw [Uncached.found, hOutcome]
  | value table =>
    rw [hOutcome] at hAsk
    obtain ⟨outcome, asked, hResolve, hCases⟩ :=
      resolveMembers_of_value hAsk className root
    refine ⟨outcome, _, hResolve, { hAfter with }, ?_⟩
    rcases hCases with hValue | ⟨hCrash, chain, hChain, hOn⟩
    · left
      rw [hValue, Uncached.found, hOutcome, hAfter.provided]
    · right
      rw [hProvider] at hOn
      exact ⟨hCrash, table, chain, rfl, hChain, hOn⟩

/-- **A query answers as without a cache**, unless the provider crashes on the chain, and keeps
    what it finds in agreement with the table. -/
theorem membersOf (hMirrors : cache.Mirrors members uncached) (className : String)
    (root : RootScope) :
    (cache.membersOf className root).2.Mirrors members
        (uncached.perform (.query className root)) ∧
      ((cache.membersOf className root).1 = uncached.answer members className root ∨
        (cache.membersOf className root).1 = none ∧ ∃ table chain,
          uncached.ask.1 = .value table ∧ table.get? className = some chain ∧
            cache.provider.CrashesOn chain) := by
  cases hDisposed : cache.disposed with
  | true =>
    have hUncached : uncached.disposed = true := hMirrors.disposed.symm.trans hDisposed
    rw [membersOf_of_disposed hDisposed, Uncached.perform, Uncached.answer, if_pos hUncached,
      if_pos hUncached]
    exact ⟨hMirrors, .inl rfl⟩
  | false =>
    have hUncached : ¬ uncached.disposed = true := by
      rw [← hMirrors.disposed, hDisposed]
      exact Bool.false_ne_true
    rw [Uncached.perform, Uncached.answer, if_neg hUncached, if_neg hUncached]
    cases hEntry : cache.entries.get? (className, root) with
    | some symbols =>
      -- A kept answer belongs to the table, and so does the uncached one.
      obtain ⟨table, hTable, hSymbols⟩ := hMirrors.entries className root symbols hEntry
      rw [membersOf_of_get?_eq_some hDisposed hEntry, Uncached.found, Uncached.ask_of_table hTable]
      exact ⟨hMirrors, .inl (by rw [hSymbols]; rfl)⟩
    | none =>
      obtain ⟨entries, hQuery, hSettled, hGet⟩ :=
        membersOf_of_get?_eq_none hDisposed hMirrors.entriesSettled hEntry
      obtain ⟨outcome, after, hResolve, hAfter, hOutcome⟩ :=
        hMirrors.resolveMembers className root
      rw [hResolve] at hQuery hGet
      rw [hQuery]
      refine ⟨{ hAfter with entriesSettled := hSettled, entries := ?_ }, ?_⟩
      · intro other otherRoot symbols hOther
        rw [hGet] at hOther
        split at hOther
        · -- The entry of this very query: after a crash there is none.
          rename_i hKey
          cases hKey
          rcases hOutcome with hFound | ⟨hCrash, -⟩
          · rw [hFound] at hOther
            exact Uncached.table_of_found hOther
          · rw [hCrash] at hOther
            cases hOther
        · -- An entry from before was made from a table, which is still the table.
          obtain ⟨table, hTable, hSymbols⟩ := hMirrors.entries other otherRoot symbols hOther
          rw [Uncached.ask_of_table hTable]
          exact ⟨table, hTable, hSymbols⟩
      · rcases hOutcome with hFound | ⟨hCrash, hOn⟩
        · exact .inl (by rw [hFound])
        · exact .inr ⟨by rw [hCrash]; rfl, hOn⟩

/-- **Every step keeps the mirror.** -/
theorem perform (hMirrors : cache.Mirrors members uncached) (step : CacheStep) :
    (cache.perform step).Mirrors members (uncached.perform step) := by
  cases step with
  | query className root => exact (hMirrors.membersOf className root).1
  | invalidate => exact mirrors_reset hMirrors.source hMirrors.disposed hMirrors.provided
  | setSource source => exact mirrors_reset rfl hMirrors.disposed hMirrors.provided
  | dispose => exact mirrors_reset hMirrors.source rfl hMirrors.provided

/-- And so does every history, by induction on its steps. -/
theorem performAll (hMirrors : cache.Mirrors members uncached) (steps : List CacheStep) :
    (cache.performAll steps).Mirrors members (uncached.performAll steps) := by
  induction steps generalizing cache uncached with
  | nil => exact hMirrors
  | cons step rest ih => exact ih (hMirrors.perform step)

end Mirrors

/-! ## Transparency -/

/-- **Caching is transparent.**  After every history of a cache, and for every class and root, the
    next query answers as the uncached hierarchy with the same history does; the one other thing
    that can become of it is that the provider crashes at a class of the chain.  Up to there the
    source has been used for the same loads; and if it has its records already, the table is
    theirs. -/
theorem membersOf_performAll (module : ModuleId) (source : AncestorSource)
    (provider : MemberProvider) (steps : List CacheStep) (className : String) (root : RootScope) :
    let cache := (fresh module source provider).performAll steps
    let uncached := ({ source } : Uncached).performAll steps
    let answer := (cache.membersOf className root).1
    (answer = uncached.answer provider.members className root ∨
      answer = none ∧ ∃ table chain, uncached.ask.1 = .value table ∧
        table.get? className = some chain ∧ cache.provider.CrashesOn chain) ∧
    cache.source = uncached.source ∧
    ∀ records, uncached.source = .materialized records →
      uncached.ask.1 = .value (.ofRecords records) := by
  have hMirrors := (mirrors_fresh module source provider).performAll steps
  refine ⟨(hMirrors.membersOf className root).2, hMirrors.source, ?_⟩
  intro records hSource
  have hStart : ({ source } : Uncached).OfRecords := by
    intro records hSource table hTable
    cases hTable
  exact Uncached.ask_of_materialized (Uncached.ofRecords_performAll hStart steps) hSource

/-- Neither the answer nor the table of the first source outlives it. -/
example :
    let owner : ClassDescriptor := .ofProject "B"
    let provider : MemberProvider :=
      { members := fun name => if name = "B" then [⟨owner, "run", .isPublic, none⟩] else [] }
    let inheriting : AncestorSource := .materialized [⟨"A", ["A", "B"]⟩]
    let alone : AncestorSource := .materialized [⟨"A", ["A"]⟩]
    let cache := (fresh ⟨"app"⟩ alone provider).performAll
      [.query "A" ⟨7⟩, .setSource inheriting, .invalidate]
    (cache.membersOf "A" ⟨7⟩).1 = some [⟨"run", "B", .isPublic, none, ⟨7⟩⟩] := by
  decide

end HierarchyCache

end Lineage
