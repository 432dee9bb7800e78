/-
  The symbols that a processor is given, after any history of a registry.

  There are three parts to it.  A PROCESSOR is called on symbols in turn, up to the first that it
  rejects (`Visits`); as it has a state, what it does with a symbol depends on those before.  The
  CACHE that serves a module is the one whose registration stands after the history.  The ANSWER of
  this cache is that of the uncached hierarchy with the same history.

  What keeps the parts apart is that a processor sees the symbols only when the query is over.  To
  process symbols is one query of the cache, whoever processes them and however early that ends; so
  the history of a cache does not tell of processors, and later answers cannot either.
-/
import Lineage.Proofs.Hierarchy.Failure
import Lineage.Proofs.Hierarchy.ProviderRun

namespace Lineage

namespace ModuleRegistry

variable {σ : Type} {processor : σ → Symbol → Bool × σ}

/-! ## Processors -/

/-- The state of a processor after it was called on some symbols. -/
def stateAfter (processor : σ → Symbol → Bool × σ) (s : σ) (calls : List Symbol) : σ :=
  calls.foldl (fun s symbol => (processor s symbol).2) s

/-- A processor that also writes down what it is called on. -/
def recording (processor : σ → Symbol → Bool × σ) (s : σ × List Symbol) (symbol : Symbol) :
    Bool × σ × List Symbol :=
  ((processor s.1 symbol).1, (processor s.1 symbol).2, s.2 ++ [symbol])

/-- The processor takes each of the symbols, after it was called on those before. -/
def Accepts (processor : σ → Symbol → Bool × σ) (s : σ) (symbols : List Symbol) : Prop :=
  ∀ before symbol after, symbols = before ++ symbol :: after →
    (processor (stateAfter processor s before) symbol).1 = true

/-- **The calls of a processor** that is given symbols, and whether it takes them all. -/
inductive Visits (processor : σ → Symbol → Bool × σ) (s : σ) (symbols : List Symbol) :
    List Symbol → Bool → Prop
  /-- It takes all of them. -/
  | all (hAccepts : Accepts processor s symbols) : Visits processor s symbols symbols true
  /-- It takes those before a symbol, rejects this one, and is not called on those after. -/
  | stopped (before : List Symbol) (symbol : Symbol) (after : List Symbol)
      (hSplit : symbols = before ++ symbol :: after) (hAccepts : Accepts processor s before)
      (hRejects : (processor (stateAfter processor s before) symbol).1 = false) :
      Visits processor s symbols (before ++ [symbol]) false

/-- The first call leaves the state in which the others are made. -/
theorem stateAfter_cons {s next : σ} {symbol : Symbol} {taken : Bool}
    (hCall : processor s symbol = (taken, next)) (calls : List Symbol) :
    stateAfter processor s (symbol :: calls) = stateAfter processor next calls := by
  rw [stateAfter, List.foldl_cons, hCall]
  rfl

theorem accepts_nil (s : σ) : Accepts processor s [] := by
  intro before symbol after hSplit
  cases before <;> cases hSplit

/-- A processor that takes the first symbol, and then the others, accepts them all. -/
theorem Accepts.cons {s next : σ} {symbol : Symbol} {symbols : List Symbol}
    (hAccepts : Accepts processor next symbols) (hCall : processor s symbol = (true, next)) :
    Accepts processor s (symbol :: symbols) := by
  intro before later after hSplit
  cases before with
  | nil =>
    cases hSplit
    show (processor s symbol).1 = true
    rw [hCall]
  | cons first rest =>
    cases hSplit
    rw [stateAfter_cons hCall]
    exact hAccepts rest later after rfl

/-- A symbol that is taken comes before the calls for the others. -/
theorem Visits.cons {s next : σ} {symbol : Symbol} {symbols calls : List Symbol} {completed : Bool}
    (hVisits : Visits processor next symbols calls completed)
    (hCall : processor s symbol = (true, next)) :
    Visits processor s (symbol :: symbols) (symbol :: calls) completed := by
  cases hVisits with
  | all hAccepts => exact .all (hAccepts.cons hCall)
  | stopped before rejected after hSplit hAccepts hRejects =>
    refine .stopped (symbol :: before) rejected after ?_ (hAccepts.cons hCall) ?_
    · rw [hSplit]
      rfl
    · rw [stateAfter_cons hCall]
      exact hRejects

/-- **To visit symbols is to make these calls**, in this order. -/
theorem exists_visits (processor : σ → Symbol → Bool × σ) (s : σ) (symbols : List Symbol) :
    ∃ calls completed, Visits processor s symbols calls completed ∧
      visit processor s symbols = (completed, stateAfter processor s calls) ∧
      ∀ log, visit (recording processor) (s, log) symbols =
        (completed, stateAfter processor s calls, log ++ calls) := by
  -- On the symbols, for any state: the processor goes on to the next one as long as it takes them.
  induction symbols generalizing s with
  | nil =>
    refine ⟨[], true, .all (accepts_nil s), rfl, fun log => ?_⟩
    rw [visit, List.append_nil]
    rfl
  | cons symbol rest ih =>
    cases hCall : processor s symbol with | mk taken next =>
    have hRecorded : ∀ log, recording processor (s, log) symbol =
        (taken, next, log ++ [symbol]) := by
      intro log
      rw [recording, hCall]
    cases taken with
    | true =>
      obtain ⟨calls, completed, hVisits, hPlain, hLog⟩ := ih next
      refine ⟨symbol :: calls, completed, hVisits.cons hCall, ?_, fun log => ?_⟩
      · rw [visit, hCall, stateAfter_cons hCall]
        exact hPlain
      · rw [visit, hRecorded, stateAfter_cons hCall]
        dsimp only
        rw [hLog, List.append_assoc]
        rfl
    | false =>
      refine ⟨[symbol], false, .stopped [] symbol rest rfl (accepts_nil s) ?_, ?_, fun log => ?_⟩
      · show (processor s symbol).1 = false
        rw [hCall]
      · rw [visit, hCall, stateAfter_cons hCall]
        rfl
      · rw [visit, hRecorded, stateAfter_cons hCall]
        rfl

end ModuleRegistry

/-! ## Answers -/

namespace HierarchyCache

/-- The next query that needs the table fails in the load of it. -/
def FailsToLoad (cache : HierarchyCache) : Prop :=
  cache.table.get? () = none ∧ ∃ error, cache.source.load.1 = .failure error

variable {cache : HierarchyCache} {members : String → List MethodDescriptor} {uncached : Uncached}

/-- Without a table there are no members, and none from before. -/
theorem Mirrors.membersOf_of_failsToLoad (hMirrors : cache.Mirrors members uncached)
    (hFails : cache.FailsToLoad) (className : String) (root : RootScope) :
    (cache.membersOf className root).1 = some [] := by
  obtain ⟨hNone, error, hLoad⟩ := hFails
  rw [hMirrors.table] at hNone
  rw [hMirrors.source] at hLoad
  have hAsk : uncached.ask.1 = .failure error := by rw [Uncached.ask_of_no_table hNone, hLoad]
  rcases (hMirrors.membersOf className root).2 with hAnswer | ⟨-, table, chain, hTable, -⟩
  · rw [hAnswer, Uncached.answer, Uncached.found, hAsk]
    split <;> rfl
  · rw [hAsk] at hTable
    cases hTable

/-- **The answer of a query is what it keeps**, if it did not have to do without a table. -/
theorem Mirrors.kept_of_membersOf (hMirrors : cache.Mirrors members uncached)
    (hEnabled : cache.disposed = false) (hLoads : ¬ cache.FailsToLoad) {className : String}
    {root : RootScope} {symbols : List Symbol}
    (hAnswer : (cache.membersOf className root).1 = some symbols) :
    (cache.membersOf className root).2.entries.get? (className, root) = some symbols := by
  cases hEntry : cache.entries.get? (className, root) with
  | some kept =>
    rw [membersOf_of_get?_eq_some hEnabled hEntry] at hAnswer ⊢
    cases hAnswer
    exact hEntry
  | none =>
    obtain ⟨entries, hQuery, -, hGet⟩ :=
      membersOf_of_get?_eq_none hEnabled hMirrors.entriesSettled hEntry
    have hFails : (cache.resolveMembers className root).1.value? = none →
        FailsIn className cache (cache.resolveMembers className root).2
          (cache.resolveMembers className root).1 :=
      failsIn_resolveMembers hMirrors.tableSettled
    rw [hQuery] at hAnswer ⊢
    rw [hGet, if_pos rfl]
    -- An answer that is kept is a value; a load that failed answers with no symbols, and is not
    -- kept.
    cases hOutcome : (cache.resolveMembers className root).1 with
    | value found =>
      rw [hOutcome] at hAnswer
      exact hAnswer
    | failure error =>
      rw [hOutcome] at hFails
      obtain ⟨hNone, hLoad⟩ := hFails rfl
      exact absurd ⟨hNone, error, hLoad⟩ hLoads
    | crash =>
      rw [hOutcome] at hAnswer
      cases hAnswer

end HierarchyCache

/-! ## Processing -/

namespace ModuleRegistry

variable {σ : Type}

/-- **The processor is called on these symbols**, in this order, and no others; and the result says
    whether it has taken all that there were. -/
structure Calls (registry : ModuleRegistry) (module : Option ModuleId) (className : String)
    (root : RootScope) (processor : σ → Symbol → Bool × σ) (s : σ) (calls : List Symbol)
    (completed : Bool) : Prop where
  plain : (registry.process module className root processor s).1 =
    some (completed, stateAfter processor s calls)
  recorded : (registry.process module className root (recording processor) (s, [])).1 =
    some (completed, stateAfter processor s calls, calls)

/-- **What processing comes to** in a module that is served by a cache. -/
structure Offers (registry : ModuleRegistry) (module : ModuleId) (number : Nat)
    (cache : HierarchyCache) (className : String) (root : RootScope)
    (processor : σ → Symbol → Bool × σ) (s : σ) : Prop where
  /-- The processor is called on the members that the cache answers, up to the first one that it
      rejects. -/
  answered : ∀ symbols, (cache.membersOf className root).1 = some symbols →
    ∃ calls completed, Visits processor s symbols calls completed ∧
      registry.Calls (some module) className root processor s calls completed
  /-- If the load fails that the query needs, it is not called. -/
  failed : cache.FailsToLoad → registry.Calls (some module) className root processor s [] true
  /-- If the query crashes, so does the processing. -/
  crashed : (cache.membersOf className root).1 = none →
    (registry.process (some module) className root processor s).1 = none
  /-- However far the processor gets, the registry is left as by the query alone. -/
  left : (registry.process (some module) className root processor s).2 =
    registry.perform (.query number className root)
  /-- All that was answered is kept. -/
  memoized : ∀ symbols, (cache.membersOf className root).1 = some symbols →
    cache.disposed = false → ¬ cache.FailsToLoad →
      ∃ kept, (registry.perform (.query number className root)).caches[number]? = some kept ∧
        kept.entries.get? (className, root) = some symbols

/-- Without a cache there is nothing to give. -/
theorem calls_of_no_cache {registry : ModuleRegistry} {module : Option ModuleId}
    (hNone : module.bind registry.cacheFor = none) (className : String) (root : RootScope)
    (processor : σ → Symbol → Bool × σ) (s : σ) :
    registry.Calls module className root processor s [] true ∧
      (registry.process module className root processor s).2 = registry := by
  refine ⟨⟨?_, ?_⟩, ?_⟩
  · rw [process, hNone]
    rfl
  · rw [process, hNone]
    rfl
  · rw [process, hNone]

/-- The processor is given the answer of the cache. -/
theorem ServedBy.process_fst {registry : ModuleRegistry} {module : ModuleId} {number : Nat}
    {cache : HierarchyCache} (hServed : registry.ServedBy module number cache) (className : String)
    (root : RootScope) (processor : σ → Symbol → Bool × σ) (s : σ) :
    (registry.process (some module) className root processor s).1 =
      (cache.membersOf className root).1.map (visit processor s) := by
  rw [process, Option.bind_some, hServed.current]
  dsimp only
  rw [membersOf, hServed.cache]

/-- A cache that serves a module offers what it answers. -/
theorem ServedBy.offers {registry : ModuleRegistry} {module : ModuleId} {number : Nat}
    {cache : HierarchyCache} {members : String → List MethodDescriptor} {uncached : Uncached}
    (hServed : registry.ServedBy module number cache) (hMirrors : cache.Mirrors members uncached)
    (className : String) (root : RootScope) (processor : σ → Symbol → Bool × σ) (s : σ) :
    registry.Offers module number cache className root processor s := by
  have hAnswered : ∀ symbols, (cache.membersOf className root).1 = some symbols →
      ∃ calls completed, Visits processor s symbols calls completed ∧
        registry.Calls (some module) className root processor s calls completed := by
    intro symbols hAnswer
    obtain ⟨calls, completed, hVisits, hPlain, hLog⟩ := exists_visits processor s symbols
    refine ⟨calls, completed, hVisits, ?_, ?_⟩
    · rw [hServed.process_fst, hAnswer, Option.map_some, hPlain]
    · rw [hServed.process_fst, hAnswer, Option.map_some, hLog, List.nil_append]
  refine
    { answered := hAnswered
      failed := ?_
      crashed := ?_
      left := ?_
      memoized := ?_ }
  · intro hFails
    obtain ⟨calls, completed, hVisits, hCalls⟩ :=
      hAnswered [] (hMirrors.membersOf_of_failsToLoad hFails className root)
    cases hVisits with
    | all _ => exact hCalls
    | stopped before symbol after hSplit _ _ => cases before <;> cases hSplit
  · intro hCrash
    rw [hServed.process_fst, hCrash, Option.map_none]
  · rw [process_snd, Option.bind_some, hServed.current]
  · intro symbols hAnswer hEnabled hLoads
    refine ⟨(cache.membersOf className root).2, ?_, ?_⟩
    · rw [perform, getElem?_caches_query, if_pos rfl, hServed.cache, Option.map_some]
    · exact hMirrors.kept_of_membersOf hEnabled hLoads hAnswer

/-- **Processing after any history.**  Without a module, or if it was disposed of after each of its
    registrations, the processor is not called and nothing changes.  A registration that stands says
    which cache serves the module, and what was done with it; the processor is called on the members
    that this cache answers, and these are the members by the uncached hierarchy, unless the
    provider crashes.  There is no third case. -/
theorem process_ofHistory (history : List ProviderStep) (className : String) (root : RootScope)
    (processor : σ → Symbol → Bool × σ) (s : σ) :
    let registry := ofHistory history
    (∀ module : Option ModuleId, (∀ owner, module = some owner → Absent owner history) →
      registry.Calls module className root processor s [] true ∧
        (registry.process module className root processor s).2 = registry) ∧
    (∀ module (standing : Standing module history),
      registry.cacheFor module = some standing.number ∧
      registry.caches[standing.number]? = some standing.cache ∧
      registry.Offers module standing.number standing.cache className root processor s ∧
      ((standing.cache.membersOf className root).1 =
          standing.uncached.answer standing.provider.members className root ∨
        (standing.cache.membersOf className root).1 = none ∧ ∃ table chain,
          standing.uncached.ask.1 = .value table ∧ table.get? className = some chain ∧
            standing.cache.provider.CrashesOn chain)) ∧
    ∀ module, Absent module history ∨ Nonempty (Standing module history) := by
  intro registry
  refine ⟨?_, ?_, ?_⟩
  · intro module hAbsent
    -- A module is absent or stands; if it is absent no cache is asked.
    refine calls_of_no_cache ?_ className root processor s
    rw [Option.bind_eq_none_iff]
    intro owner hOwner
    rcases absent_or_standing owner history with ⟨-, hNone⟩ | hStanding
    · exact hNone
    · -- A registration that was undone does not stand.
      obtain ⟨standing⟩ := hStanding
      have hDisposed := hAbsent owner hOwner _ _ _ _ _ standing.split
      have hEnds := standing.stays _ hDisposed
      simp [ProviderStep.ends] at hEnds
  · intro module standing
    have hServed := servedBy_ofHistory standing
    have hOffers := hServed.offers standing.mirrors className root processor s
    exact ⟨hServed.current, hServed.cache, hOffers, (standing.mirrors.membersOf className root).2⟩
  · intro module
    exact (absent_or_standing module history).imp And.left id

/-- A processor that stopped at once leaves all members to the next one. -/
example :
    let owner : ClassDescriptor := .ofProject "B"
    let provider : MemberProvider :=
      { members := fun name =>
          if name = "B" then [⟨owner, "run", .isPublic, none⟩, ⟨owner, "stop", .isPublic, none⟩]
          else [] }
    let source : AncestorSource := .materialized [⟨"A", ["A", "B"]⟩]
    let registry := ofHistory [.register ⟨"app"⟩ source provider [],
      .process (some ⟨"app"⟩) "A" ⟨7⟩ (fun _ _ => (false, ())) ()]
    (registry.process (some ⟨"app"⟩) "A" ⟨7⟩ (fun n _ => (true, n + 1)) 0).1 = some (true, 2) := by
  decide

end ModuleRegistry

end Lineage
