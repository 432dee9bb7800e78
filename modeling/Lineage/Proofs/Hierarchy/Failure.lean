/-
  A query that comes to nothing leaves the cache as it was.

  Finding the members of a class may fail in the load of the table, which reports a failure or
  crashes, and it may crash in the provider at any class of the chain.  Whatever it is passes
  through two flights, that of the answer around that of the table, and each of them frees its key.
  So nothing is under way afterwards, and nothing is kept of what was begun: the other answers are
  there as before, and the key that was asked for is as free as before.

  One thing may have changed for good.  If the table was loaded and the provider crashed after that,
  the table stays, since nothing was wrong with it; later queries find it and load nothing.  A load
  that failed is tried again by the next query.
-/
import Lineage.Proofs.Hierarchy.Work

namespace Lineage

/-- A source apart from what it has had executed. -/
def AncestorSource.withoutLog : AncestorSource → AncestorSource
  | materialized records => materialized records
  | extractor strategy console project interpreter =>
    extractor strategy { console with log := [] } project interpreter

/-- A load changes nothing of a source but its log. -/
theorem AncestorSource.withoutLog_load (source : AncestorSource) :
    source.load.2.withoutLog = source.withoutLog := by
  cases source with
  | materialized records => rfl
  | extractor strategy console project interpreter =>
    cases interpreter with
    | none => rfl
    | some interpreter =>
      simp only [load, withoutLog, Strategy.extract, Console.execute]
      cases console.reply console.log.length <;> rfl

namespace HierarchyCache

variable {cache : HierarchyCache} {members : String → List MethodDescriptor} {uncached : Uncached}

/-! ## What is left of a query that came to nothing -/

/-- What failed: the load of a table that was not there, or the provider at a class of the chain,
    with the table there. -/
def FailsIn (className : String) (before after : HierarchyCache) :
    Outcome (List Symbol) ExtractionFailure → Prop
  | .value _ => False
  | .failure error => before.table.get? () = none ∧ before.source.load.1 = .failure error
  | .crash => before.table.get? () = none ∧ before.source.load.1 = .crash ∨
    ∃ table chain, after.table.get? () = some table ∧ table.get? className = some chain ∧
      before.provider.CrashesOn chain

/-- **A query for `key` that came to nothing**, with the cache before and after it. -/
structure LeavesIntact (key : String × RootScope) (before after : HierarchyCache) : Prop where
  /-- The module, the generation and whether the cache is disposed. -/
  life : after.life = before.life
  source : after.source.withoutLog = before.source.withoutLog
  /-- The provider may have been asked for some classes. -/
  provider : ∃ classes, after.provider =
    { before.provider with asked := before.provider.asked ++ classes }
  unresolved : after.entries.state key = .unresolved
  others : ∀ other, other ≠ key → after.entries.state other = before.entries.state other ∧
    after.entries.get? other = before.entries.get? other
  /-- The table stays, and where there was none, one that was loaded stays. -/
  table : (∃ table, before.table.get? () = some table ∧ after.table.get? () = some table ∧
      after.source = before.source) ∨
    before.table.get? () = none ∧ after.table.get? () = before.source.load.1.value? ∧
      after.source = before.source.load.2
  /-- No load is under way. -/
  tableState : after.table.state () =
    if (after.table.get? ()).isSome then .resolved else .unresolved

/-- **What fails**: a load, or the provider once the table is there. -/
theorem failsIn_resolveMembers (hSettled : cache.table.Settled) {className : String}
    {root : RootScope} (hFails : (cache.resolveMembers className root).1.value? = none) :
    FailsIn className cache (cache.resolveMembers className root).2
      (cache.resolveMembers className root).1 := by
  obtain ⟨-, hKept⟩ := loads_ancestorTable hSettled
  have hLoad : cache.table.get? () = none → cache.ancestorTable.1 = cache.source.load.1 := by
    intro hNone
    obtain ⟨table, hAsk, -⟩ := ancestorTable_of_get?_eq_none hSettled hNone
    rw [hAsk]
  -- A table that is there is not loaded, so a load that fails means that there was none.
  have hNone : (∀ table, cache.ancestorTable.1 ≠ .value table) → cache.table.get? () = none := by
    intro hNothing
    cases hTable : cache.table.get? () with
    | none => rfl
    | some table =>
      rw [ancestorTable_of_get?_eq_some hTable] at hNothing
      exact absurd rfl (hNothing table)
  cases hAsk : cache.ancestorTable with | mk outcome after =>
  rw [hAsk] at hLoad hNone hKept
  cases outcome with
  | failure error =>
    rw [resolveMembers_of_failure hAsk]
    have hMissing := hNone (fun table => nofun)
    exact ⟨hMissing, (hLoad hMissing).symm⟩
  | crash =>
    rw [resolveMembers_of_crash hAsk]
    have hMissing := hNone (fun table => nofun)
    exact .inl ⟨hMissing, (hLoad hMissing).symm⟩
  | value table =>
    have hProvider : after.provider = cache.provider :=
      congrArg (fun asked => asked.2.provider) hAsk.symm
    obtain ⟨outcome, asked, hResolve, hCases⟩ := resolveMembers_of_value hAsk className root
    rw [hResolve] at hFails ⊢
    rcases hCases with rfl | ⟨rfl, chain, hChain, hCrashes⟩
    · cases hFails
    · rw [hProvider] at hCrashes
      exact .inr ⟨table, chain, hKept table rfl, hChain, hCrashes⟩

/-- **A query that comes to nothing leaves the cache intact.** -/
theorem Mirrors.leavesIntact (hMirrors : cache.Mirrors members uncached) {className : String}
    {root : RootScope} (hEnabled : cache.disposed = false)
    (hMissing : cache.entries.get? (className, root) = none)
    (hFails : (cache.resolveMembers className root).1.value? = none) :
    LeavesIntact (className, root) cache (cache.membersOf className root).2 := by
  have hAfter := (hMirrors.membersOf className root).1
  obtain ⟨entries, hQuery, -, hGet⟩ :=
    membersOf_of_get?_eq_none hEnabled hMirrors.entriesSettled hMissing
  obtain ⟨classes, hResolve, -⟩ := cache.resolveMembers_eq className root
  obtain ⟨hLoads, -⟩ := loads_ancestorTable hMirrors.tableSettled
  have hEntries : (cache.membersOf className root).2.entries = entries := by rw [hQuery]
  have hTable : (cache.membersOf className root).2.table = cache.ancestorTable.2.table := by
    rw [hQuery, hResolve]
  have hSource : (cache.membersOf className root).2.source = cache.ancestorTable.2.source := by
    rw [hQuery, hResolve]
  rw [← hEntries, hFails] at hGet
  -- Only the flight of the key and the provider's log have moved; `hGet` says that the other
  -- entries are the same.
  refine
    { life := cache.life_membersOf className root
      source := ?_
      provider := ⟨classes, by rw [hQuery, hResolve]⟩
      unresolved := ?_
      others := ?_
      table := ?_
      tableState := hAfter.tableSettled.state_eq () }
  · rw [hSource]
    rcases hLoads with ⟨-, -, -, hSame⟩ | ⟨-, -, -, hLoaded⟩
    · rw [hSame]
    · rw [hLoaded, AncestorSource.withoutLog_load]
  · rw [hAfter.entriesSettled.state_eq, hGet, if_pos rfl]
    rfl
  · intro other hOther
    have hSame := hGet other
    rw [if_neg hOther] at hSame
    rw [hAfter.entriesSettled.state_eq, hMirrors.entriesSettled.state_eq, hSame]
    exact ⟨rfl, rfl⟩
  · rw [hTable, hSource]
    rcases hLoads with ⟨table, hThere, hKept, hSame⟩ | ⟨hNone, -, hGot, hLoaded⟩
    · exact .inl ⟨table, hThere, hKept ▸ hThere, hSame⟩
    · exact .inr ⟨hNone, hGot, hLoaded⟩

/-! ## Later queries -/

/-- **A query whose collaborators succeed** answers with the members by the table, which is there or
    is loaded. -/
theorem Mirrors.membersOf_of_success (hMirrors : cache.Mirrors members uncached)
    (hEnabled : cache.disposed = false) {table : AncestorTable}
    (hTable : cache.table.get? () = some table ∨
      cache.table.get? () = none ∧ cache.source.load.1 = .value table)
    {className : String}
    (hProvider : ∀ chain, table.get? className = some chain → ¬ cache.provider.CrashesOn chain)
    (root : RootScope) :
    (cache.membersOf className root).1 = some (table.symbols members className root) := by
  -- The machine without memo has the same table, or loads the same one.
  have hAsk : uncached.ask.1 = .value table := by
    rw [hMirrors.table, hMirrors.source] at hTable
    rcases hTable with hThere | ⟨hNone, hLoad⟩
    · rw [Uncached.ask_of_table hThere]
    · rw [Uncached.ask_of_no_table hNone, hLoad]
  have hUncached : ¬ uncached.disposed = true := by
    rw [← hMirrors.disposed, hEnabled]
    exact Bool.false_ne_true
  rcases (hMirrors.membersOf className root).2 with hAnswer | ⟨-, other, chain, hOther, hChain, hOn⟩
  · rw [hAnswer, Uncached.answer, if_neg hUncached, Uncached.found, hAsk]
    rfl
  · rw [hAsk] at hOther
    cases hOther
    exact absurd hOn (hProvider chain hChain)

/-- A table that is there stays, and nothing more is loaded. -/
theorem Mirrors.table_membersOf (hMirrors : cache.Mirrors members uncached) {table : AncestorTable}
    (hTable : cache.table.get? () = some table) (className : String) (root : RootScope) :
    (cache.membersOf className root).2.table.get? () = some table ∧
      (cache.membersOf className root).2.source = cache.source := by
  rcases membersOf_cases hMirrors className root with ⟨-, hSame⟩ | ⟨outcome, hSearches⟩
  · rw [hSame]
    exact ⟨hTable, rfl⟩
  · rcases hSearches.loads with ⟨-, -, hKept, hSource⟩ | ⟨hNone, -⟩
    · rw [hKept]
      exact ⟨hTable, hSource⟩
    · rw [hTable] at hNone
      cases hNone

/-- And so through any number of queries. -/
theorem Mirrors.table_performAll (hMirrors : cache.Mirrors members uncached)
    {table : AncestorTable} (hTable : cache.table.get? () = some table) {steps : List CacheStep}
    (hQueries : ∀ step ∈ steps, step.key? ≠ none) :
    (cache.performAll steps).table.get? () = some table ∧
      (cache.performAll steps).source = cache.source := by
  induction steps generalizing cache uncached with
  | nil => exact ⟨hTable, rfl⟩
  | cons step rest ih =>
    obtain ⟨hQuery, hRest⟩ := List.forall_mem_cons.1 hQueries
    cases step with
    | query className root =>
      obtain ⟨hStays, hSource⟩ := hMirrors.table_membersOf hTable className root
      obtain ⟨hLast, hSame⟩ := ih (hMirrors.perform (.query className root)) hStays hRest
      exact ⟨hLast, hSame.trans hSource⟩
    | invalidate | setSource _ | dispose => exact absurd rfl hQuery

/-- **A query that fails or crashes leaves the cache intact**, after any history of the cache.
    Later on, whatever is done in between, a query whose collaborators succeed has the right answer;
    and as long as there are only queries, the table that is there after the failure stays, and
    nothing more is executed for it. -/
theorem membersOf_leavesIntact (module : ModuleId) (source : AncestorSource)
    (provider : MemberProvider) (steps : List CacheStep) (className : String) (root : RootScope)
    (hEnabled : ((fresh module source provider).performAll steps).disposed = false)
    (hFree : ((fresh module source provider).performAll steps).entryState className root =
      .unresolved)
    (hFails : ∀ symbols, (((fresh module source provider).performAll steps).resolveMembers
      className root).1 ≠ .value symbols) :
    let cache := (fresh module source provider).performAll steps
    let outcome := (cache.resolveMembers className root).1
    let after := (cache.membersOf className root).2
    FailsIn className cache after outcome ∧
    (cache.membersOf className root).1 = answerOf outcome ∧
    LeavesIntact (className, root) cache after ∧
    (∀ later other scope table, (after.performAll later).disposed = false →
      ((after.performAll later).table.get? () = some table ∨
        (after.performAll later).table.get? () = none ∧
          (after.performAll later).source.load.1 = .value table) →
      (∀ chain, table.get? other = some chain →
        ¬ (after.performAll later).provider.CrashesOn chain) →
      ((after.performAll later).membersOf other scope).1 =
        some (table.symbols provider.members other scope)) ∧
    ∀ later other scope table, (∀ step ∈ later, step.key? ≠ none) →
      after.table.get? () = some table →
        (after.performAll later).table.get? () = some table ∧
        ((after.performAll later).membersOf other scope).2.source = after.source := by
  intro cache outcome after
  -- All that was done before leaves the cache a mirror of the machine without memo, and so does the
  -- query that fails.
  have hMirrors := (mirrors_fresh module source provider).performAll steps
  have hMissing := hMirrors.entriesSettled.get?_of_unresolved hFree
  have hNothing : (cache.resolveMembers className root).1.value? = none := by
    cases hOutcome : (cache.resolveMembers className root).1 with
    | value symbols => exact absurd hOutcome (hFails symbols)
    | failure _ | crash => rfl
  have hAfter := (hMirrors.membersOf className root).1
  obtain ⟨entries, hQuery, -⟩ :=
    membersOf_of_get?_eq_none hEnabled hMirrors.entriesSettled hMissing
  refine ⟨?_, ?_, hMirrors.leavesIntact hEnabled hMissing hNothing, ?_, ?_⟩
  · show FailsIn className cache (cache.membersOf className root).2 outcome
    rw [hQuery]
    exact failsIn_resolveMembers hMirrors.tableSettled hNothing
  · rw [hQuery]
  · intro later other scope table hOpen hTable hProvider
    exact (hAfter.performAll later).membersOf_of_success hOpen hTable hProvider scope
  · intro later other scope table hQueries hTable
    obtain ⟨hStays, hSource⟩ := hAfter.table_performAll hTable hQueries
    obtain ⟨-, hSame⟩ := (hAfter.performAll later).table_membersOf hStays other scope
    exact ⟨hStays, hSame.trans hSource⟩

/-- A console that is busy at first, and a provider that crashes once, at the second class. -/
def busySource : AncestorSource :=
  .extractor .objectSpace (.replying (.refused "busy") [.output "A: A B"]) ⟨"app", "/app", []⟩
    (some ⟨"ruby", "3"⟩)

/-- A provider that crashes once, on the second class that it is asked for. -/
def crashingProvider : MemberProvider where
  members className := if className = "B" then [⟨.ofProject "B", "run", .isPublic, none⟩] else []
  crashes asked className := asked = ["A"] && className = "B"

/-- A cache over them whose first query has failed, in the load. -/
def busyCache : HierarchyCache :=
  (fresh ⟨"app"⟩ busySource crashingProvider).performAll [.query "A" ⟨7⟩]

/-- The table that the cache has loaded by then. -/
def loadedTable : AncestorTable := .ofRecords [⟨"A", ["A", "B"]⟩]

/-- Its second query loads the table and then fails in the provider. -/
theorem busyCache_fails : busyCache.disposed = false ∧
    busyCache.entryState "A" ⟨7⟩ = .unresolved ∧ busyCache.table.get? () = none ∧
    (busyCache.resolveMembers "A" ⟨7⟩).1 = .crash ∧
    ((busyCache.membersOf "A" ⟨7⟩).2.table.get? ()).map (·.entries) = some loadedTable.entries ∧
    (busyCache.membersOf "A" ⟨7⟩).2.provider.asked = ["A", "B"] := by
  decide +kernel

/-- The third query finds the table, executes nothing and has the answer. -/
theorem membersOf_leavesIntact_crashAfterLoad :
    let after := (busyCache.membersOf "A" ⟨7⟩).2
    busyCache.disposed = false ∧ busyCache.entryState "A" ⟨7⟩ = .unresolved ∧
      (busyCache.resolveMembers "A" ⟨7⟩).1 = .crash ∧ busyCache.table.get? () = none ∧
      LeavesIntact ("A", ⟨7⟩) busyCache after ∧ after.table.get? () = some loadedTable ∧
      (after.membersOf "A" ⟨7⟩).1 = some [⟨"run", "B", .isPublic, none, ⟨7⟩⟩] ∧
      (after.membersOf "A" ⟨7⟩).2.source = after.source := by
  intro after
  obtain ⟨hEnabled, hFree, hNone, hCrash, hEntries, hAsked⟩ := busyCache_fails
  have hLoaded : after.table.get? () = some loadedTable := by
    obtain ⟨table, hTable, hSame⟩ := Option.map_eq_some_iff.1 hEntries
    rw [OrderedMap.ext_entries hSame] at hTable
    exact hTable
  have hFails : ∀ symbols, (busyCache.resolveMembers "A" ⟨7⟩).1 ≠ .value symbols := by
    rw [hCrash]
    exact nofun
  obtain ⟨-, -, hIntact, hAnswers, hStays⟩ := membersOf_leavesIntact ⟨"app"⟩ busySource
    crashingProvider [.query "A" ⟨7⟩] "A" ⟨7⟩ hEnabled hFree hFails
  have hEnabledAfter : after.disposed = false :=
    (congrArg CacheLife.disposed hIntact.life).trans hEnabled
  -- The provider crashes only when it is asked for `B` right after `A` alone.
  have hRecovered : ∀ chain, loadedTable.get? "A" = some chain →
      ¬ after.provider.CrashesOn chain := by
    obtain ⟨classes, hProvider⟩ := hIntact.provider
    have hKept := congrArg MemberProvider.crashes hProvider
    have hSame : after.provider.crashes = crashingProvider.crashes := hKept
    rintro chain - ⟨before, className, behind, -, hCrashes⟩
    rw [hAsked, hSame] at hCrashes
    simp [crashingProvider] at hCrashes
  refine ⟨hEnabled, hFree, hCrash, hNone, hIntact, hLoaded, ?_, ?_⟩
  · exact hAnswers [] "A" ⟨7⟩ loadedTable hEnabledAfter (.inl hLoaded) hRecovered
  · exact (hStays [] "A" ⟨7⟩ loadedTable (by simp) hLoaded).2

end HierarchyCache

end Lineage
