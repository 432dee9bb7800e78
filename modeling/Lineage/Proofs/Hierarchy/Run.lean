/-
  Runs of a hierarchy cache, and the one step of them that is not plain: a query, in its cases.

  A query on a cache that is not disposed finds its answer in the entries, or finds the members
  anew.  To find members takes the ancestor table, which is there or is loaded, and then the
  provider, which is asked for the classes of the chain in turn and may crash at one of them:

      entry there             the answer is the entry; nothing changes
      load fails, crashes     the outcome is the load's; the table stays away
      class without a chain   no members
      provider crashes        at a class of the chain, after it was asked for those before
      else                    the symbols of the chain

  Each case has its lemma here, with all that it does to the cache.  The other steps start a new
  generation, by definition.
-/
import Lineage.Hierarchy.Cache
import Lineage.Proofs.Flight.Settled

namespace Lineage

/-! ## Providers -/

namespace MemberProvider

/-- **A chain is asked for in turn**: for all of its classes, or up to the class that the provider
    crashes at. -/
theorem membersOfChain_cases (provider : MemberProvider) (chain : List String) :
    provider.membersOfChain chain =
        (some (chain.flatMap provider.members),
          { provider with asked := provider.asked ++ chain }) ∨
      ∃ before className after, chain = before ++ className :: after ∧
        provider.crashes (provider.asked ++ before) className = true ∧
        provider.membersOfChain chain =
          (none, { provider with asked := provider.asked ++ before ++ [className] }) := by
  -- On the chain, for any provider, as each class that is asked for is noted in its log.
  induction chain generalizing provider with
  | nil =>
    left
    simp [membersOfChain]
  | cons first rest ih =>
    by_cases hCrash : provider.crashes provider.asked first = true
    · right
      refine ⟨[], first, rest, rfl, ?_, ?_⟩
      · simpa using hCrash
      · simp [membersOfChain, membersOf, hCrash]
    · have hStep : provider.membersOf first =
          (some (provider.members first),
            { provider with asked := provider.asked ++ [first] }) := by
        rw [membersOf, if_neg hCrash]
      rcases ih { provider with asked := provider.asked ++ [first] } with
        hAll | ⟨before, className, after, hChain, hLater, hNone⟩
      · left
        simp only [membersOfChain, hStep, hAll]
        simp
      · right
        refine ⟨first :: before, className, after, by rw [hChain]; rfl, ?_, ?_⟩
        · simpa using hLater
        · simp only [membersOfChain, hStep, hNone]
          simp

end MemberProvider

/-- The members of a class by a table: the methods of its chain, the first of each name. -/
def AncestorTable.symbols (table : AncestorTable) (members : String → List MethodDescriptor)
    (className : String) (root : RootScope) : List Symbol :=
  match table.get? className with
  | none => []
  | some chain => (firstByName (chain.flatMap members)).map (Symbol.ofMethod root)

/-- A provider crashes at a class of a chain. -/
def MemberProvider.CrashesOn (provider : MemberProvider) (chain : List String) : Prop :=
  ∃ before className after, chain = before ++ className :: after ∧
    provider.crashes (provider.asked ++ before) className = true

namespace HierarchyCache

variable {cache : HierarchyCache} {className : String} {root : RootScope}

/-! ## The table -/

/-- A table that is there is used. -/
theorem ancestorTable_of_get?_eq_some {table : AncestorTable}
    (hTable : cache.table.get? () = some table) : cache.ancestorTable = (.value table, cache) := by
  simp only [ancestorTable, FlightMap.resolve_of_get?_eq_some hTable]
  rfl

/-- **A table that is not there is loaded**, and stays if the load succeeds. -/
theorem ancestorTable_of_get?_eq_none (hSettled : cache.table.Settled)
    (hTable : cache.table.get? () = none) :
    ∃ table, cache.ancestorTable =
        (cache.source.load.1, { cache with table, source := cache.source.load.2 }) ∧
      table.Settled ∧ table.get? () = cache.source.load.1.value? := by
  obtain ⟨table, hResolve, hAfter, hGet⟩ :=
    hSettled.resolve_of_get?_eq_none hTable cache.source AncestorSource.load
  refine ⟨table, ?_, hAfter, by simpa using hGet ()⟩
  simp only [ancestorTable, hResolve]
  rfl

/-! ## Members -/

theorem resolveMembers_of_failure {error : ExtractionFailure} {after : HierarchyCache}
    (hTable : cache.ancestorTable = (.failure error, after)) :
    cache.resolveMembers className root = (.failure error, after) := by
  rw [resolveMembers, hTable]

theorem resolveMembers_of_crash {after : HierarchyCache}
    (hTable : cache.ancestorTable = (.crash, after)) :
    cache.resolveMembers className root = (.crash, after) := by
  rw [resolveMembers, hTable]

/-- **With a table the members are those it says**, unless the provider crashes. -/
theorem resolveMembers_of_value {table : AncestorTable} {after : HierarchyCache}
    (hTable : cache.ancestorTable = (.value table, after)) (className : String)
    (root : RootScope) :
    ∃ outcome asked, cache.resolveMembers className root =
        (outcome, { after with provider := { after.provider with asked } }) ∧
      (outcome = .value (table.symbols after.provider.members className root) ∨
        outcome = .crash ∧
          ∃ chain, table.get? className = some chain ∧ after.provider.CrashesOn chain) := by
  simp only [resolveMembers, hTable]
  cases hChain : table.get? className with
  | none =>
    refine ⟨_, after.provider.asked, rfl, .inl ?_⟩
    rw [AncestorTable.symbols, hChain]
  | some chain =>
    rcases after.provider.membersOfChain_cases chain with
      hAll | ⟨before, crashed, behind, hSplit, hCrash, hNone⟩
    · refine ⟨_, after.provider.asked ++ chain, ?_, .inl rfl⟩
      simp only [symbolsOfChain, hAll, AncestorTable.symbols, hChain]
      rfl
    · refine ⟨_, after.provider.asked ++ before ++ [crashed], ?_,
        .inr ⟨rfl, chain, rfl, before, crashed, behind, hSplit, hCrash⟩⟩
      simp only [symbolsOfChain, hNone]
      rfl

/-! ## Queries -/

/-- What a query makes of the outcome of finding the members. -/
def answerOf : Outcome (List Symbol) ExtractionFailure → Option (List Symbol)
  | .value symbols => some symbols
  | .failure _ => some []
  | .crash => none

theorem membersOf_of_disposed (hDisposed : cache.disposed = true) :
    cache.membersOf className root = (some [], cache) := by
  rw [membersOf, if_pos hDisposed]

/-- An entry that is there is the answer. -/
theorem membersOf_of_get?_eq_some (hDisposed : cache.disposed = false) {symbols : List Symbol}
    (hEntry : cache.entries.get? (className, root) = some symbols) :
    cache.membersOf className root = (some symbols, cache) := by
  rw [membersOf, if_neg (by simp [hDisposed])]
  simp only [FlightMap.resolve_of_get?_eq_some hEntry]
  rfl

/-- **Without an entry the members are found**, and become the entry if that succeeds. -/
theorem membersOf_of_get?_eq_none (hDisposed : cache.disposed = false)
    (hSettled : cache.entries.Settled) (hEntry : cache.entries.get? (className, root) = none) :
    ∃ entries, cache.membersOf className root =
        (answerOf (cache.resolveMembers className root).1,
          { (cache.resolveMembers className root).2 with entries }) ∧
      entries.Settled ∧
      ∀ key, entries.get? key =
        if key = (className, root) then (cache.resolveMembers className root).1.value?
        else cache.entries.get? key := by
  -- At rest the key is free, so the query leads the flight and lands it.
  obtain ⟨entries, hResolve, hAfter, hGet⟩ :=
    hSettled.resolve_of_get?_eq_none hEntry cache fun cache => cache.resolveMembers className root
  refine ⟨entries, ?_, hAfter, hGet⟩
  rw [membersOf, if_neg (by simp [hDisposed])]
  simp only [hResolve]
  rfl

/-! ## Lives -/

end HierarchyCache

/-- What the life of a cache is told by. -/
structure CacheLife where
  module : ModuleId
  generation : Nat := 0
  disposed : Bool := false
  deriving DecidableEq, Repr

namespace HierarchyCache

/-- What of a cache can be seen without asking it anything. -/
def life (cache : HierarchyCache) : CacheLife := ⟨cache.module, cache.generation, cache.disposed⟩

theorem life_ancestorTable (cache : HierarchyCache) : cache.ancestorTable.2.life = cache.life := rfl

/-- Looking members up is no event in the life of a cache. -/
theorem life_resolveMembers (cache : HierarchyCache) (className : String) (root : RootScope) :
    (cache.resolveMembers className root).2.life = cache.life := by
  rw [resolveMembers, ← life_ancestorTable cache]
  cases cache.ancestorTable with | mk outcome after =>
  cases outcome with
  | failure _ | crash => rfl
  | value table =>
    dsimp only
    cases table.get? className with
    | none => rfl
    | some chain =>
      dsimp only
      cases symbolsOfChain after.provider chain root with | mk symbols provider =>
      cases symbols <;> rfl

/-- **A query leaves the life of a cache as it is**, however it ends. -/
@[simp] theorem life_membersOf (cache : HierarchyCache) (className : String) (root : RootScope) :
    (cache.membersOf className root).2.life = cache.life := by
  rw [membersOf]
  split
  · rfl
  -- Only a leader looks members up, and that is no event either.
  · rw [FlightMap.resolve]
    cases cache.entries.claim (className, root) with | mk claim entries =>
    cases claim with
    | follower number => rfl
    | leader number => exact life_resolveMembers cache className root

@[simp] theorem life_invalidate (cache : HierarchyCache) :
    cache.invalidate.life = { cache.life with generation := cache.life.generation + 1 } := rfl

@[simp] theorem life_dispose (cache : HierarchyCache) :
    cache.dispose.life =
      { cache.life with generation := cache.life.generation + 1, disposed := true } := rfl

/-! ## Runs -/

/-- A cache as it is made. -/
def fresh (module : ModuleId) (source : AncestorSource) (provider : MemberProvider) :
    HierarchyCache where
  module
  provider
  source

end HierarchyCache

/-- What is done with a cache. -/
inductive CacheStep where
  | query (className : String) (root : RootScope)
  | invalidate
  | setSource (source : AncestorSource)
  | dispose

namespace HierarchyCache

/-- What one step makes of a cache. -/
def perform (cache : HierarchyCache) : CacheStep → HierarchyCache
  | .query className root => (cache.membersOf className root).2
  | .invalidate => cache.invalidate
  | .setSource source => cache.setSource source
  | .dispose => cache.dispose

/-- What several steps make of a cache. -/
def performAll (cache : HierarchyCache) (steps : List CacheStep) : HierarchyCache :=
  steps.foldl perform cache

end HierarchyCache

end Lineage
