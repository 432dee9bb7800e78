/-
  In each generation of a cache, work is done once.

  What a cache has done stands in four logs, to which its steps only add: the flights of its two
  maps, one for each load of the table and one for each search for members, the executions that its
  source has asked a console for, and the classes that its provider was asked for.  A TURN is one
  step of a run together with the cache that it meets, and its WORK is what it adds to these logs.

  A query that works does so from the outside in: it searches for members, for that it may load the
  table, and for that it may execute a script.  Each of these may fail or crash, also an outer one
  after an inner one has succeeded.  What has succeeded is kept until the generation ends:

      a table that was loaded     no query loads again, or executes anything
      an answer that was found    no query for its key does anything at all

  Both are the same argument (`pairwise_kept`): queries keep what is kept, and a turn that is no
  query ends the generation.
-/
import Lineage.Proofs.Hierarchy.Transparency

namespace Lineage

/-! ## The log of a source -/

namespace AncestorSource

/-- What a source has had executed. -/
def log : AncestorSource → List Execution
  | materialized _ => []
  | extractor _ console _ _ => console.log

/-- Each execution is noted once. -/
theorem length_log (source : AncestorSource) : source.log.length = source.executions := by
  cases source <;> rfl

/-- What a load executes: a script, if there is someone to extract and an interpreter. -/
def execution? : AncestorSource → Option Execution
  | extractor strategy _ project (some interpreter) =>
    some ⟨project, interpreter, strategy.script project⟩
  | extractor _ _ _ none | materialized _ => none

/-- Whatever comes of a load, it has executed its script once. -/
theorem log_load (source : AncestorSource) :
    source.load.2.log = source.log ++ source.execution?.toList := by
  cases source with
  | materialized records => rfl
  | extractor strategy console project interpreter =>
    cases interpreter with
    | none => simp [load, log, execution?]
    | some interpreter =>
      simp only [load, log, execution?, Strategy.extract, Console.execute, Option.toList_some]
      cases console.reply console.log.length <;> rfl

end AncestorSource

/-! ## What a query does -/

namespace HierarchyCache

variable {cache : HierarchyCache} {members : String → List MethodDescriptor} {uncached : Uncached}

/-- What asking for the table does: nothing to a table that is there; else it loads once. -/
def Loads (before after : HierarchyCache) : Prop :=
  (∃ table, before.table.get? () = some table ∧ after.table = before.table ∧
    after.source = before.source) ∨
  before.table.get? () = none ∧
    after.table.flights = before.table.flights ++ [.ofOutcome before.source.load.1] ∧
    after.table.get? () = before.source.load.1.value? ∧ after.source = before.source.load.2

/-- What finding the members for `key` does, with this outcome. -/
structure Searches (key : String × RootScope) (outcome : Outcome (List Symbol) ExtractionFailure)
    (before after : HierarchyCache) : Prop where
  enabled : before.disposed = false
  missing : before.entries.get? key = none
  loads : before.Loads after
  flights : after.entries.flights = before.entries.flights ++ [.ofOutcome outcome]
  entries : ∀ other, after.entries.get? other =
    if other = key then outcome.value? else before.entries.get? other
  /-- The provider is asked for the chain, if it comes to an answer. -/
  asked : ∃ classes, after.provider.asked = before.provider.asked ++ classes ∧
    ∀ symbols, outcome = .value symbols →
      ∃ table, after.table.get? () = some table ∧ classes = (table.get? key.1).getD []

/-- **Asking for the table** loads it at most once, and a table that it comes to is kept. -/
theorem loads_ancestorTable (hSettled : cache.table.Settled) :
    cache.Loads cache.ancestorTable.2 ∧
      ∀ table, cache.ancestorTable.1 = .value table →
        cache.ancestorTable.2.table.get? () = some table := by
  cases hTable : cache.table.get? () with
  | some table =>
    rw [ancestorTable_of_get?_eq_some hTable]
    refine ⟨.inl ⟨table, hTable, rfl, rfl⟩, ?_⟩
    intro other hOther
    cases hOther
    exact hTable
  | none =>
    have hFlights : cache.ancestorTable.2.table.flights =
        cache.table.flights ++ [.ofOutcome cache.source.load.1] :=
      hSettled.flights_resolve hTable cache.source AncestorSource.load
    obtain ⟨after, hLoad, -, hGet⟩ := ancestorTable_of_get?_eq_none hSettled hTable
    rw [hLoad] at hFlights ⊢
    refine ⟨.inr ⟨hTable, hFlights, hGet, rfl⟩, ?_⟩
    intro table hValue
    rw [hGet, hValue]
    rfl

/-- **Finding members** does nothing but ask for the table and then, class by class, the provider;
    if it comes to an answer, for the whole chain. -/
theorem resolveMembers_eq (cache : HierarchyCache) (className : String) (root : RootScope) :
    ∃ classes, (cache.resolveMembers className root).2 =
        { cache.ancestorTable.2 with
          provider := { cache.provider with asked := cache.provider.asked ++ classes } } ∧
      ∀ symbols, (cache.resolveMembers className root).1 = .value symbols →
        ∃ table, cache.ancestorTable.1 = .value table ∧
          classes = (table.get? className).getD [] := by
  have hProvider : cache.ancestorTable.2.provider = cache.provider := rfl
  rw [← hProvider, resolveMembers]
  cases cache.ancestorTable with | mk outcome after =>
  cases outcome with
  | failure _ | crash =>
    refine ⟨[], by simp, ?_⟩
    intro symbols hNone
    cases hNone
  | value table =>
    dsimp only
    -- Along a chain the provider is asked for each class up to the one that it crashes on.
    cases hChain : table.get? className with
    | none =>
      refine ⟨[], by simp, fun _ _ => ⟨table, rfl, ?_⟩⟩
      rw [hChain]
      rfl
    | some chain =>
      rcases after.provider.membersOfChain_cases chain with
        hAll | ⟨before, crashed, behind, -, -, hNone⟩
      · refine ⟨chain, by simp only [symbolsOfChain, hAll, Option.map_some],
          fun _ _ => ⟨table, rfl, ?_⟩⟩
        rw [hChain]
        rfl
      · refine ⟨before ++ [crashed], ?_, ?_⟩
        · simp only [symbolsOfChain, hNone, Option.map_none, List.append_assoc]
        · intro symbols hValue
          simp [symbolsOfChain, hNone] at hValue

/-- **A query in its two cases**: it leaves the cache as it is, if that is disposed or has the
    answer, or it searches for the members. -/
theorem membersOf_cases (hMirrors : cache.Mirrors members uncached) (className : String)
    (root : RootScope) :
    ((cache.disposed = true ∨ (cache.entries.get? (className, root)).isSome = true) ∧
        (cache.membersOf className root).2 = cache) ∨
      ∃ outcome, Searches (className, root) outcome cache (cache.membersOf className root).2 := by
  cases hDisposed : cache.disposed with
  | true =>
    rw [membersOf_of_disposed hDisposed]
    exact .inl ⟨.inl rfl, rfl⟩
  | false =>
    cases hEntry : cache.entries.get? (className, root) with
    | some symbols =>
      rw [membersOf_of_get?_eq_some hDisposed hEntry]
      exact .inl ⟨.inr rfl, rfl⟩
    | none =>
      right
      -- The key is free: a flight is opened for it, and what is resolved is the outcome that lands.
      have hFlights : (cache.membersOf className root).2.entries.flights =
          cache.entries.flights ++ [.ofOutcome (cache.resolveMembers className root).1] := by
        rw [membersOf, if_neg (by simp [hDisposed])]
        exact hMirrors.entriesSettled.flights_resolve hEntry cache
          fun cache => cache.resolveMembers className root
      obtain ⟨entries, hQuery, -, hGet⟩ :=
        membersOf_of_get?_eq_none hDisposed hMirrors.entriesSettled hEntry
      obtain ⟨classes, hAfter, hClasses⟩ := cache.resolveMembers_eq className root
      obtain ⟨hLoads, hKept⟩ := loads_ancestorTable hMirrors.tableSettled
      rw [hQuery] at hFlights ⊢
      refine ⟨(cache.resolveMembers className root).1, hDisposed, hEntry, ?_, hFlights, hGet,
        classes, ?_, ?_⟩
      · rw [hAfter]
        exact hLoads
      · rw [hAfter]
      · intro symbols hValue
        obtain ⟨table, hTable, hChain⟩ := hClasses symbols hValue
        rw [hAfter]
        exact ⟨table, hKept table hTable, hChain⟩

end HierarchyCache

/-! ## Turns -/

/-- The key that a step asks for, if it is a query. -/
def CacheStep.key? : CacheStep → Option (String × RootScope)
  | .query className root => some (className, root)
  | .invalidate | .setSource _ | .dispose => none

/-- The source that a cache has in a step: one that is handed to it, or else its own. -/
def CacheStep.source (own : AncestorSource) : CacheStep → AncestorSource
  | .setSource source => source
  | .query _ _ | .invalidate | .dispose => own

/-- A step of a run, and the cache as it is then. -/
structure Turn where
  before : HierarchyCache
  step : CacheStep

/-- The turns of a run. -/
def HierarchyCache.turns (cache : HierarchyCache) : List CacheStep → List Turn
  | [] => []
  | step :: rest => ⟨cache, step⟩ :: (cache.perform step).turns rest

namespace Turn

/-- The cache after the turn. -/
def after (turn : Turn) : HierarchyCache := turn.before.perform turn.step

/-- The generation in which the turn is taken. -/
def generation (turn : Turn) : Nat := turn.before.generation

/-- What the turn asks for, if it asks. -/
def key? (turn : Turn) : Option (String × RootScope) := turn.step.key?

/-- The source that the turn can load from. -/
def source (turn : Turn) : AncestorSource := turn.step.source turn.before.source

/-! ### Work -/

/-- What became of the loads of the table in this turn. -/
def loads (turn : Turn) : List (FlightState AncestorTable ExtractionFailure) :=
  turn.after.table.flights.drop turn.before.table.flights.length

/-- What became of the searches for members. -/
def searches (turn : Turn) : List (FlightState (List Symbol) ExtractionFailure) :=
  turn.after.entries.flights.drop turn.before.entries.flights.length

/-- What was executed. -/
def executions (turn : Turn) : List Execution := turn.after.source.log.drop turn.source.log.length

/-- The classes that the provider was asked for. -/
def lookups (turn : Turn) : List String :=
  turn.after.provider.asked.drop turn.before.provider.asked.length

/-- Nothing is run in the turn: nothing loaded, looked up or executed. -/
def Idle (turn : Turn) : Prop :=
  turn.loads = [] ∧ turn.searches = [] ∧ turn.executions = [] ∧ turn.lookups = []

/-- All logs are as they were, or longer. -/
structure Grows (turn : Turn) : Prop where
  table : turn.before.table.flights <+: turn.after.table.flights
  entries : turn.before.entries.flights <+: turn.after.entries.flights
  source : turn.source.log <+: turn.after.source.log
  provider : turn.before.provider.asked <+: turn.after.provider.asked

variable {turn : Turn} {members : String → List MethodDescriptor} {uncached : Uncached}

/-- A turn that leaves the logs as they are is idle. -/
theorem idle_of_logs (hTable : turn.after.table.flights = turn.before.table.flights)
    (hEntries : turn.after.entries.flights = turn.before.entries.flights)
    (hSource : turn.after.source = turn.source)
    (hProvider : turn.after.provider = turn.before.provider) : turn.Grows ∧ turn.Idle := by
  constructor
  · exact
      { table := ⟨[], by rw [List.append_nil, hTable]⟩
        entries := ⟨[], by rw [List.append_nil, hEntries]⟩
        source := ⟨[], by rw [List.append_nil, hSource]⟩
        provider := ⟨[], by rw [List.append_nil, hProvider]⟩ }
  · refine ⟨?_, ?_, ?_, ?_⟩
    · rw [loads, hTable, List.drop_length]
    · rw [searches, hEntries, List.drop_length]
    · rw [executions, hSource, List.drop_length]
    · rw [lookups, hProvider, List.drop_length]

/-- **A turn in its two cases**: it is idle, or it is a query that searches for members. -/
theorem idle_or_searches (hMirrors : turn.before.Mirrors members uncached) :
    (turn.Grows ∧ turn.Idle) ∨
      ∃ key outcome, turn.key? = some key ∧ turn.source = turn.before.source ∧
        turn.before.Searches key outcome turn.after := by
  obtain ⟨before, step⟩ := turn
  cases step with
  | invalidate | setSource _ | dispose => exact .inl (idle_of_logs rfl rfl rfl rfl)
  | query className root =>
    rcases HierarchyCache.membersOf_cases hMirrors className root with
      ⟨-, hSame⟩ | ⟨outcome, hSearches⟩
    · have hAfter : Turn.after ⟨before, .query className root⟩ = before := hSame
      exact .inl (idle_of_logs (by rw [hAfter]) (by rw [hAfter]) (by rw [hAfter]; rfl)
        (by rw [hAfter]))
    · exact .inr ⟨_, outcome, rfl, rfl, hSearches⟩

/-! ### What a search does -/

section Search

variable {key : String × RootScope} {outcome : Outcome (List Symbol) ExtractionFailure}

/-- It is one search. -/
theorem searches_eq (hSearches : turn.before.Searches key outcome turn.after) :
    turn.searches = [.ofOutcome outcome] := by
  rw [searches, hSearches.flights, List.drop_left]

/-- It loads the table if that is not there, and a load executes what the source has to. -/
theorem loads_cases (hSource : turn.source = turn.before.source)
    (hSearches : turn.before.Searches key outcome turn.after) :
    (turn.before.table.get? () ≠ none ∧ turn.loads = [] ∧ turn.executions = []) ∨
      turn.before.table.get? () = none ∧ turn.loads = [.ofOutcome turn.source.load.1] ∧
        turn.executions = turn.source.execution?.toList ∧
        turn.after.table.get? () = turn.source.load.1.value? := by
  rcases hSearches.loads with ⟨table, hGet, hTable, hSame⟩ | ⟨hGet, hFlights, hAfter, hLoaded⟩
  · left
    refine ⟨by simp [hGet], ?_, ?_⟩
    · rw [loads, hTable, List.drop_length]
    · rw [executions, hSame, hSource, List.drop_length]
  · right
    refine ⟨hGet, ?_, ?_, by rw [hAfter, hSource]⟩
    · rw [loads, hFlights, List.drop_left, hSource]
    · rw [executions, hLoaded, hSource, AncestorSource.log_load, List.drop_left]

/-- A search adds to the logs and takes nothing away. -/
theorem grows_of_searches (hSource : turn.source = turn.before.source)
    (hSearches : turn.before.Searches key outcome turn.after) : turn.Grows := by
  obtain ⟨classes, hAsked, -⟩ := hSearches.asked
  refine
    { table := ?_
      entries := ⟨_, hSearches.flights.symm⟩
      source := ?_
      provider := ⟨classes, hAsked.symm⟩ }
  · rcases hSearches.loads with ⟨-, -, hTable, -⟩ | ⟨-, hFlights, -, -⟩
    · exact ⟨[], by rw [List.append_nil, hTable]⟩
    · exact ⟨_, hFlights.symm⟩
  · rcases hSearches.loads with ⟨-, -, -, hSame⟩ | ⟨-, -, -, hLoaded⟩
    · exact ⟨[], by rw [List.append_nil, hSame, hSource]⟩
    · rw [hLoaded, hSource, AncestorSource.log_load]
      exact List.prefix_append _ _

end Search

/-! ### What a turn does -/

theorem grows (hMirrors : turn.before.Mirrors members uncached) : turn.Grows := by
  rcases idle_or_searches hMirrors with ⟨hGrows, -⟩ | ⟨key, outcome, -, hSource, hSearches⟩
  · exact hGrows
  · exact grows_of_searches hSource hSearches

/-- The executions of a turn are those that the source has counted. -/
theorem executions_after (hGrows : turn.Grows) :
    turn.after.source.executions = turn.source.executions + turn.executions.length := by
  obtain ⟨more, hLog⟩ := hGrows.source
  rw [executions, ← hLog, List.drop_left, ← AncestorSource.length_log,
    ← AncestorSource.length_log, ← hLog, List.length_append]

/-- Work is done by queries alone. -/
theorem idle_of_key?_eq_none (hMirrors : turn.before.Mirrors members uncached)
    (hKey : turn.key? = none) : turn.Idle := by
  rcases idle_or_searches hMirrors with ⟨-, hIdle⟩ | ⟨key, outcome, hSome, -, -⟩
  · exact hIdle
  · rw [hKey] at hSome
    cases hSome

/-- **Work is nested**: what is executed belongs to a load, a load to a search, and there is one
    search at most. -/
theorem length_work_le (hMirrors : turn.before.Mirrors members uncached) :
    turn.executions.length ≤ turn.loads.length ∧ turn.loads.length ≤ turn.searches.length ∧
      turn.searches.length ≤ 1 := by
  rcases idle_or_searches hMirrors with
    ⟨-, hLoads, hFound, hExecutions, -⟩ | ⟨key, outcome, -, hSource, hSearches⟩
  · simp [hLoads, hFound, hExecutions]
  · rw [searches_eq hSearches]
    rcases loads_cases hSource hSearches with
      ⟨-, hLoads, hExecutions⟩ | ⟨-, hLoads, hExecutions, -⟩
    · simp [hLoads, hExecutions]
    · rw [hLoads, hExecutions]
      cases turn.source.execution? <;> simp

/-- With the table there, nothing is loaded. -/
theorem loads_of_table (hMirrors : turn.before.Mirrors members uncached)
    (hTable : turn.before.table.get? () ≠ none) : turn.loads = [] ∧ turn.executions = [] := by
  rcases idle_or_searches hMirrors with
    ⟨-, hLoads, -, hExecutions, -⟩ | ⟨key, outcome, -, hSource, hSearches⟩
  · exact ⟨hLoads, hExecutions⟩
  · rcases loads_cases hSource hSearches with ⟨-, hNothing⟩ | ⟨hNone, -⟩
    · exact hNothing
    · exact absurd hNone hTable

/-- A table that was loaded is there. -/
theorem table_of_loaded (hMirrors : turn.before.Mirrors members uncached) {table : AncestorTable}
    (hLoaded : .resolved table ∈ turn.loads) : turn.after.table.get? () = some table := by
  rcases idle_or_searches hMirrors with ⟨-, hLoads, -⟩ | ⟨key, outcome, -, hSource, hSearches⟩
  · rw [hLoads] at hLoaded
    cases hLoaded
  · rcases loads_cases hSource hSearches with ⟨-, hLoads, -⟩ | ⟨-, hLoads, -, hAfter⟩
    · rw [hLoads] at hLoaded
      cases hLoaded
    · rw [hLoads, List.mem_singleton] at hLoaded
      rw [hAfter]
      exact FlightState.ofOutcome_eq_resolved_iff.1 hLoaded.symm

/-- With the answer there, nothing is done. -/
theorem idle_of_entry (hMirrors : turn.before.Mirrors members uncached)
    {key : String × RootScope} (hKey : turn.key? = some key)
    (hEntry : turn.before.entries.get? key ≠ none) : turn.Idle := by
  rcases idle_or_searches hMirrors with ⟨-, hIdle⟩ | ⟨other, outcome, hOther, -, hSearches⟩
  · exact hIdle
  · rw [hKey] at hOther
    cases hOther
    exact absurd hSearches.missing hEntry

/-- **An answer that was found** is there, and the provider was asked for the chain. -/
theorem entry_of_found (hMirrors : turn.before.Mirrors members uncached)
    {key : String × RootScope} (hKey : turn.key? = some key) {symbols : List Symbol}
    (hFound : .resolved symbols ∈ turn.searches) :
    turn.after.entries.get? key = some symbols ∧ ∃ table,
      turn.after.table.get? () = some table ∧ turn.lookups = (table.get? key.1).getD [] := by
  rcases idle_or_searches hMirrors with ⟨-, -, hNone, -⟩ | ⟨other, outcome, hOther, -, hSearches⟩
  · rw [hNone] at hFound
    cases hFound
  · rw [hKey] at hOther
    cases hOther
    rw [searches_eq hSearches, List.mem_singleton] at hFound
    have hValue := FlightState.ofOutcome_eq_resolved_iff.1 hFound.symm
    obtain ⟨classes, hAsked, hClasses⟩ := hSearches.asked
    refine ⟨by rw [hSearches.entries, if_pos rfl, hValue], ?_⟩
    rw [lookups, hAsked, List.drop_left]
    cases outcome with
    | value found => exact hClasses found rfl
    | failure _ | crash => cases hValue

/-- **Without an extractor that can run, nothing is executed**, nor in a disposed cache. -/
theorem executions_eq_nil (hMirrors : turn.before.Mirrors members uncached)
    (hNothing : turn.before.disposed = true ∨ turn.source.execution? = none) :
    turn.executions = [] := by
  rcases idle_or_searches hMirrors with
    ⟨-, -, -, hExecutions, -⟩ | ⟨key, outcome, -, hSource, hSearches⟩
  · exact hExecutions
  · rcases loads_cases hSource hSearches with ⟨-, -, hExecutions⟩ | ⟨-, -, hExecutions, -⟩
    · exact hExecutions
    · rcases hNothing with hDisposed | hNone
      · rw [hSearches.enabled] at hDisposed
        cases hDisposed
      · rw [hExecutions, hNone]
        rfl

end Turn

/-! ## Generations -/

namespace HierarchyCache

variable {cache : HierarchyCache} {members : String → List MethodDescriptor} {uncached : Uncached}

/-- A generation lasts as long as there are only queries. -/
theorem generation_perform (cache : HierarchyCache) (step : CacheStep) :
    (cache.perform step).generation =
      cache.generation + if step.key?.isSome then 0 else 1 := by
  cases step with
  | query className root =>
    have hLife := congrArg CacheLife.generation (cache.life_membersOf className root)
    exact hLife
  | invalidate | setSource _ | dispose => rfl

/-- The invariant of a cache holds in each of its turns. -/
theorem Mirrors.of_mem_turns (hMirrors : cache.Mirrors members uncached) {steps : List CacheStep}
    {turn : Turn} (hTurn : turn ∈ cache.turns steps) :
    ∃ uncached, turn.before.Mirrors members uncached := by
  induction steps generalizing cache uncached with
  | nil => cases hTurn
  | cons step rest ih =>
    rcases List.mem_cons.1 hTurn with rfl | hRest
    · exact ⟨uncached, hMirrors⟩
    · exact ih (hMirrors.perform step) hRest

/-! ### What is kept -/

/-- Queries keep `Kept`. -/
def KeptByQueries (members : String → List MethodDescriptor) (Kept : HierarchyCache → Prop) :
    Prop :=
  ∀ {cache : HierarchyCache} {uncached : Uncached}, cache.Mirrors members uncached →
    ∀ className root, Kept cache → Kept (cache.membersOf className root).2

/-- The table is kept. -/
theorem keptByQueries_table (members : String → List MethodDescriptor) :
    KeptByQueries members fun cache => cache.table.get? () ≠ none := by
  intro cache uncached hMirrors className root hTable
  rcases membersOf_cases hMirrors className root with ⟨-, hSame⟩ | ⟨outcome, hSearches⟩
  · rwa [hSame]
  · rcases hSearches.loads with ⟨-, -, hKept, -⟩ | ⟨hNone, -⟩
    · rwa [hKept]
    · exact absurd hNone hTable

/-- An answer is kept, also by a query for another key. -/
theorem keptByQueries_entry (members : String → List MethodDescriptor)
    (key : String × RootScope) :
    KeptByQueries members fun cache => cache.entries.get? key ≠ none := by
  intro cache uncached hMirrors className root hEntry
  rcases membersOf_cases hMirrors className root with ⟨-, hSame⟩ | ⟨outcome, hSearches⟩
  · rwa [hSame]
  · have hOther : key ≠ (className, root) := by
      rintro rfl
      exact hEntry hSearches.missing
    rwa [hSearches.entries, if_neg hOther]

/-- **What queries keep is there until the generation ends**, by induction on the run; generations
    do not come back. -/
theorem kept_of_mem_turns {Kept : HierarchyCache → Prop} (hKept : KeptByQueries members Kept)
    (hMirrors : cache.Mirrors members uncached) {steps : List CacheStep} {turn : Turn}
    (hTurn : turn ∈ cache.turns steps) :
    cache.generation ≤ turn.generation ∧
      (turn.generation = cache.generation → Kept cache → Kept turn.before) := by
  induction steps generalizing cache uncached with
  | nil => cases hTurn
  | cons step rest ih =>
    rcases List.mem_cons.1 hTurn with rfl | hRest
    · exact ⟨Nat.le_refl _, fun _ hNow => hNow⟩
    · obtain ⟨hLe, hLater⟩ := ih (hMirrors.perform step) hRest
      have hGeneration := cache.generation_perform step
      cases step with
      | query className root =>
        rw [hGeneration] at hLe hLater
        exact ⟨hLe, fun hSame hNow => hLater hSame (hKept hMirrors className root hNow)⟩
      | invalidate | setSource _ | dispose =>
        have hEnded : cache.generation < turn.generation := by
          rw [hGeneration] at hLe
          exact hLe
        exact ⟨Nat.le_of_lt hEnded, fun hSame => absurd hSame (Nat.ne_of_gt hEnded)⟩

/-- **Two turns of one generation**: what the earlier leaves, the later finds. -/
theorem pairwise_kept {Kept : HierarchyCache → Prop} (hKept : KeptByQueries members Kept)
    (hMirrors : cache.Mirrors members uncached) (steps : List CacheStep) :
    (cache.turns steps).Pairwise fun earlier later =>
      earlier.generation = later.generation → earlier.key? ≠ none → Kept earlier.after →
        Kept later.before := by
  induction steps generalizing cache uncached with
  | nil => exact List.Pairwise.nil
  | cons step rest ih =>
    refine List.pairwise_cons.2 ⟨?_, ih (hMirrors.perform step)⟩
    intro later hLater hSame hQuery hNow
    refine (kept_of_mem_turns hKept (hMirrors.perform step) hLater).2 ?_ hNow
    have hGeneration := cache.generation_perform step
    rw [if_pos (Option.isSome_iff_ne_none.2 (show step.key? ≠ none from hQuery))] at hGeneration
    exact (hGeneration.trans hSame).symm

end HierarchyCache

/-! ## Once -/

/-- If an element that counts is followed by nothing more, at most one counts. -/
theorem countP_flatMap_le_one {α β : Type} {l : List α} {f : α → List β} {p : β → Bool}
    (hEach : ∀ a ∈ l, (f a).length ≤ 1)
    (hLast : l.Pairwise fun a b => (∃ x ∈ f a, p x = true) → f b = []) :
    (l.flatMap f).countP p ≤ 1 := by
  induction l with
  | nil => simp
  | cons a rest ih =>
    obtain ⟨hNone, hRest⟩ := List.pairwise_cons.1 hLast
    rw [List.flatMap_cons, List.countP_append]
    by_cases hCounts : ∃ x ∈ f a, p x = true
    · have hOver : rest.flatMap f = [] :=
        List.flatMap_eq_nil_iff.2 fun b hMem => hNone b hMem hCounts
      rw [hOver, List.countP_nil, Nat.add_zero]
      exact Nat.le_trans List.countP_le_length (hEach a List.mem_cons_self)
    · have hZero : (f a).countP p = 0 := by
        refine List.countP_eq_zero.2 fun x hMem hP => ?_
        exact hCounts ⟨x, hMem, hP⟩
      rw [hZero, Nat.zero_add]
      exact ih (fun b hMem => hEach b (List.mem_cons_of_mem a hMem)) hRest

/-- The same of the turns that are counted. -/
theorem countP_filter_le_one {ν : Type} {turns : List Turn} {counted : Turn → Bool}
    {work : Turn → List (FlightState ν ExtractionFailure)}
    (hEach : ∀ turn ∈ turns, (work turn).length ≤ 1)
    (hLast : turns.Pairwise fun earlier later => counted earlier = true → counted later = true →
      (∃ value, .resolved value ∈ work earlier) → work later = []) :
    ((turns.filter counted).flatMap work).countP (·.value?.isSome) ≤ 1 := by
  refine countP_flatMap_le_one ?_ ?_
  · intro turn hTurn
    exact hEach turn (List.mem_filter.1 hTurn).1
  · refine (hLast.filter counted).imp_of_mem ?_
    rintro earlier later hEarlier hLater hNone ⟨state, hWork, hSuccess⟩
    obtain ⟨value, hValue⟩ := Option.isSome_iff_exists.1 hSuccess
    rw [FlightState.value?_eq_some_iff] at hValue
    exact hNone (List.mem_filter.1 hEarlier).2 (List.mem_filter.1 hLater).2 ⟨value, hValue ▸ hWork⟩

/-- **Work is done once in each generation** of a run. -/
structure WorksOnce (turns : List Turn) : Prop where
  grows : ∀ turn ∈ turns, turn.Grows
  counted : ∀ turn ∈ turns,
    turn.after.source.executions = turn.source.executions + turn.executions.length
  /-- What is executed belongs to a load, a load to a search, and there is one search at most. -/
  nested : ∀ turn ∈ turns, turn.executions.length ≤ turn.loads.length ∧
    turn.loads.length ≤ turn.searches.length ∧ turn.searches.length ≤ 1
  /-- A turn is a query, or it does no work and a new generation comes after it. -/
  generations : ∀ turn ∈ turns,
    (turn.key? ≠ none ∧ turn.after.generation = turn.generation) ∨
      turn.Idle ∧ turn.after.generation = turn.generation + 1
  loadedOnce : ∀ generation, ((turns.filter fun turn => turn.generation = generation).flatMap
    Turn.loads).countP (·.value?.isSome) ≤ 1
  /-- A load that succeeded is the last, and nothing is executed after it. -/
  afterLoad : turns.Pairwise fun earlier later => earlier.generation = later.generation →
    (∃ table, .resolved table ∈ earlier.loads) → later.loads = [] ∧ later.executions = []
  foundOnce : ∀ generation key,
    ((turns.filter fun turn => turn.generation = generation ∧ turn.key? = some key).flatMap
      Turn.searches).countP (·.value?.isSome) ≤ 1
  /-- After a search that succeeded, queries for its key do nothing. -/
  afterSearch : ∀ key, turns.Pairwise fun earlier later => earlier.generation = later.generation →
    earlier.key? = some key → later.key? = some key →
      (∃ symbols, .resolved symbols ∈ earlier.searches) → later.Idle
  withoutInterpreter : ∀ turn ∈ turns,
    (turn.before.disposed = true ∨ (∃ records, turn.source = .materialized records) ∨
      ∃ strategy console project, turn.source = .extractor strategy console project none) →
    turn.executions = []
  /-- A search that succeeded has asked for the classes of the chain, in their order. -/
  chains : ∀ turn ∈ turns, ∀ key symbols, turn.key? = some key →
    .resolved symbols ∈ turn.searches →
      turn.after.entries.get? key = some symbols ∧ ∃ table,
        turn.after.table.get? () = some table ∧ turn.lookups = (table.get? key.1).getD []

namespace HierarchyCache

variable {cache : HierarchyCache} {members : String → List MethodDescriptor} {uncached : Uncached}

/-- A table that a turn has loaded is there in all later turns of its generation. -/
theorem Mirrors.afterLoad (hMirrors : cache.Mirrors members uncached) (steps : List CacheStep) :
    (cache.turns steps).Pairwise fun earlier later => earlier.generation = later.generation →
      (∃ table, .resolved table ∈ earlier.loads) → later.loads = [] ∧ later.executions = [] := by
  refine (pairwise_kept (keptByQueries_table members) hMirrors steps).imp_of_mem ?_
  rintro earlier later hEarlier hLater hKept hSame ⟨table, hLoaded⟩
  obtain ⟨before, hBefore⟩ := hMirrors.of_mem_turns hEarlier
  obtain ⟨now, hNow⟩ := hMirrors.of_mem_turns hLater
  have hQuery : earlier.key? ≠ none := by
    intro hNone
    rw [(Turn.idle_of_key?_eq_none hBefore hNone).1] at hLoaded
    cases hLoaded
  refine Turn.loads_of_table hNow (hKept hSame hQuery ?_)
  rw [Turn.table_of_loaded hBefore hLoaded]
  exact Option.some_ne_none table

/-- An answer that a turn has found is there in all later turns of its generation. -/
theorem Mirrors.afterSearch (hMirrors : cache.Mirrors members uncached) (steps : List CacheStep)
    (key : String × RootScope) :
    (cache.turns steps).Pairwise fun earlier later => earlier.generation = later.generation →
      earlier.key? = some key → later.key? = some key →
        (∃ symbols, .resolved symbols ∈ earlier.searches) → later.Idle := by
  refine (pairwise_kept (keptByQueries_entry members key) hMirrors steps).imp_of_mem ?_
  rintro earlier later hEarlier hLater hKept hSame hKey hAgain ⟨symbols, hFound⟩
  obtain ⟨before, hBefore⟩ := hMirrors.of_mem_turns hEarlier
  obtain ⟨now, hNow⟩ := hMirrors.of_mem_turns hLater
  refine Turn.idle_of_entry hNow hAgain (hKept hSame ?_ ?_)
  · rw [hKey]
    exact Option.some_ne_none key
  · rw [(Turn.entry_of_found hBefore hKey hFound).1]
    exact Option.some_ne_none symbols

/-- **Every run of a cache works once in each generation.** -/
theorem worksOnce_turns (module : ModuleId) (source : AncestorSource) (provider : MemberProvider)
    (steps : List CacheStep) : WorksOnce ((fresh module source provider).turns steps) := by
  have hFresh := mirrors_fresh module source provider
  have hTurns : ∀ turn ∈ (fresh module source provider).turns steps,
      ∃ uncached, turn.before.Mirrors provider.members uncached :=
    fun turn hTurn => hFresh.of_mem_turns hTurn
  -- In one turn an execution needs a load, and a load a search, so that each happens once at most.
  have hNested : ∀ turn ∈ (fresh module source provider).turns steps,
      turn.executions.length ≤ turn.loads.length ∧ turn.loads.length ≤ turn.searches.length ∧
        turn.searches.length ≤ 1 := by
    intro turn hTurn
    obtain ⟨uncached, hMirrors⟩ := hTurns turn hTurn
    exact Turn.length_work_le hMirrors
  refine
    { grows := ?_
      counted := ?_
      nested := hNested
      generations := ?_
      loadedOnce := ?_
      afterLoad := hFresh.afterLoad steps
      foundOnce := ?_
      afterSearch := hFresh.afterSearch steps
      withoutInterpreter := ?_
      chains := ?_ }
  · intro turn hTurn
    obtain ⟨uncached, hMirrors⟩ := hTurns turn hTurn
    exact Turn.grows hMirrors
  · intro turn hTurn
    obtain ⟨uncached, hMirrors⟩ := hTurns turn hTurn
    exact Turn.executions_after (Turn.grows hMirrors)
  · intro turn hTurn
    obtain ⟨uncached, hMirrors⟩ := hTurns turn hTurn
    have hGeneration := turn.before.generation_perform turn.step
    cases hKey : turn.key? with
    | some key =>
      left
      rw [show turn.step.key? = some key from hKey] at hGeneration
      exact ⟨Option.some_ne_none key, hGeneration⟩
    | none =>
      right
      rw [show turn.step.key? = none from hKey] at hGeneration
      exact ⟨Turn.idle_of_key?_eq_none hMirrors hKey, hGeneration⟩
  · intro generation
    -- After a load that succeeded no later turn of the generation loads again.
    refine countP_filter_le_one (fun turn hTurn => ?_) ((hFresh.afterLoad steps).imp ?_)
    · obtain ⟨-, hLoads, hSearches⟩ := hNested turn hTurn
      exact Nat.le_trans hLoads hSearches
    · intro earlier later hOnce hEarlier hLater hLoaded
      have hSame : earlier.generation = later.generation :=
        (of_decide_eq_true hEarlier).trans (of_decide_eq_true hLater).symm
      exact (hOnce hSame hLoaded).1
  · intro generation key
    refine countP_filter_le_one (fun turn hTurn => (hNested turn hTurn).2.2)
      ((hFresh.afterSearch steps key).imp ?_)
    intro earlier later hOnce hEarlier hLater hFound
    obtain ⟨hNow, hKey⟩ := of_decide_eq_true hEarlier
    obtain ⟨hThen, hAgain⟩ := of_decide_eq_true hLater
    exact (hOnce (hNow.trans hThen.symm) hKey hAgain hFound).2.1
  · intro turn hTurn hNothing
    obtain ⟨uncached, hMirrors⟩ := hTurns turn hTurn
    refine Turn.executions_eq_nil hMirrors (hNothing.imp_right ?_)
    rintro (⟨records, hSource⟩ | ⟨strategy, console, project, hSource⟩) <;> rw [hSource] <;> rfl
  · intro turn hTurn key symbols hKey hFound
    obtain ⟨uncached, hMirrors⟩ := hTurns turn hTurn
    exact Turn.entry_of_found hMirrors hKey hFound

/-- Two loads come to nothing, the third brings the table.  The provider then spoils a search; the
    next one asks it again, but for nothing else. -/
example :
    let console : Console := .replying .crash [.refused "busy", .output "A: A B"]
    let source : AncestorSource :=
      .extractor .objectSpace console ⟨"app", "/app", []⟩ (some ⟨"ruby", "3"⟩)
    let provider : MemberProvider :=
      { members := fun _ => [], crashes := fun asked _ => asked = [] }
    let turns := (fresh ⟨"app"⟩ source provider).turns (List.replicate 5 (.query "A" ⟨7⟩))
    turns.map (fun turn => (turn.executions.length, turn.searches.length, turn.lookups)) =
      [(1, 1, []), (1, 1, []), (1, 1, ["A"]), (0, 1, ["A", "B"]), (0, 0, [])] := by
  cbv

end HierarchyCache

end Lineage
