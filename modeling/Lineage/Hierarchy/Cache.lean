/-
  The hierarchy cache of a module: the members of each class, its ancestors' included.

  A query asks for a class in a root scope.  Its answer is made from the ancestor table, which is
  loaded when a query first needs it, and from the members of the classes on the chain; of several
  methods of one name the first counts, that is the one of the nearest class.  Table and answers
  are both kept in flight maps.

  Invalidation, a new source and disposal all start a new GENERATION: nothing that was kept before
  is used again.  A disposed cache answers nothing and asks nobody.
-/
import Lineage.Flight.Map
import Lineage.Hierarchy.Source

namespace Lineage

/-- Of the methods of one name the first, in order. -/
def firstByName : List MethodDescriptor → List MethodDescriptor
  | [] => []
  | method :: rest => method :: (firstByName rest).filter (·.name ≠ method.name)

/-- A cache of what classes have as members: the table it has loaded, and the answers it has
    given. -/
structure HierarchyCache where
  module : ModuleId
  provider : MemberProvider
  source : AncestorSource
  generation : Nat := 0
  disposed : Bool := false
  /-- The ancestor table, once it is loaded. -/
  table : FlightMap Unit AncestorTable ExtractionFailure := .empty
  /-- The answers to queries. -/
  entries : FlightMap (String × RootScope) (List Symbol) ExtractionFailure := .empty

namespace HierarchyCache

/-! ## Queries -/

/-- The outcome of asking a flight map.  Queries follow one another, so no flight is under way when
    the next one asks; one that waited for ever would have no outcome, like a crash. -/
def outcomeOf {ν : Type} : FlightMap.Resolution ν ExtractionFailure →
    Outcome ν ExtractionFailure
  | .ran outcome => outcome
  | .shared result => .ofExcept result
  | .waiting _ => .crash

/-- The ancestor table, loaded if it is not there. -/
def ancestorTable (cache : HierarchyCache) :
    Outcome AncestorTable ExtractionFailure × HierarchyCache :=
  let (result, table, source) := cache.table.resolve () cache.source fun table source =>
    let (outcome, source) := source.load
    (outcome, table, source)
  (outcomeOf result, { cache with table, source })

/-- The symbols of a chain of classes; `none` if the provider crashes. -/
def symbolsOfChain (provider : MemberProvider) (chain : List String) (root : RootScope) :
    Option (List Symbol) × MemberProvider :=
  let (methods, provider) := provider.membersOfChain chain
  (methods.map fun methods => (firstByName methods).map (Symbol.ofMethod root), provider)

/-- Find the members of a class.  A class of which no chain is known has none. -/
def resolveMembers (cache : HierarchyCache) (className : String) (root : RootScope) :
    Outcome (List Symbol) ExtractionFailure × HierarchyCache :=
  match cache.ancestorTable with
  | (.failure error, cache) => (.failure error, cache)
  | (.crash, cache) => (.crash, cache)
  | (.value table, cache) =>
    match table.get? className with
    | none => (.value [], cache)
    | some chain =>
      match symbolsOfChain cache.provider chain root with
      | (some symbols, provider) => (.value symbols, { cache with provider })
      | (none, provider) => (.crash, { cache with provider })

/-- The members of a class, found once in each generation.  If they cannot be found there are
    none, and nothing is kept; if something crashes, so does the query. -/
def membersOf (cache : HierarchyCache) (className : String) (root : RootScope) :
    Option (List Symbol) × HierarchyCache :=
  if cache.disposed then (some [], cache)
  else
    let (result, entries, after) := cache.entries.resolve (className, root) cache
      fun entries cache =>
        let (outcome, cache) := cache.resolveMembers className root
        (outcome, entries, cache)
    let answer := match outcomeOf result with
      | .value symbols => some symbols
      | .failure _ => some []
      | .crash => none
    (answer, { after with entries })

/-! ## Generations -/

/-- Start a new generation: with nothing kept. -/
def reset (cache : HierarchyCache) : HierarchyCache :=
  { cache with
    generation := cache.generation + 1
    table := cache.table.clear
    entries := cache.entries.clear }

/-- Forget what was loaded and answered. -/
def invalidate (cache : HierarchyCache) : HierarchyCache := cache.reset

/-- Go on with another source. -/
def setSource (cache : HierarchyCache) (source : AncestorSource) : HierarchyCache :=
  { cache with source }.reset

/-- Stop for good. -/
def dispose (cache : HierarchyCache) : HierarchyCache := { cache with disposed := true }.reset

/-! ## Looking -/

/-- The number of answers that are kept. -/
def cachedEntries (cache : HierarchyCache) : Nat := cache.entries.resolvedCount

/-- Is the answer for this class and root there? -/
def entryState (cache : HierarchyCache) (className : String) (root : RootScope) : EntryState :=
  cache.entries.state (className, root)

/-- A cache in short. -/
def describe (cache : HierarchyCache) : String :=
  "HierarchyCache \x7b module: ModuleId(" ++ Text.quote cache.module.name ++
    s!"), generation: {cache.generation}, cached_entries: {cache.cachedEntries} \x7d"

end HierarchyCache

end Lineage
