/-
  The hierarchies of all modules of a project.

  Every cache that was ever made keeps its number; `current` says which one belongs to a module.
  A module that is registered again keeps its place in the order, and the cache it had before is
  disposed.  Who asks for the symbols of a class asks the current cache of a module, and may stop
  after any of them.
-/
import Lineage.Hierarchy.Cache

namespace Lineage

/-- The caches that were ever made, and the one that each module has now. -/
structure ModuleRegistry where
  /-- All caches, by number. -/
  caches : List HierarchyCache := []
  /-- The number of the cache of each registered module. -/
  current : OrderedMap ModuleId Nat := .empty

namespace ModuleRegistry

/-- A registry without modules. -/
def empty : ModuleRegistry := {}

instance : Inhabited ModuleRegistry := ⟨empty⟩

/-- The number of the cache of a module. -/
def cacheFor (registry : ModuleRegistry) (module : ModuleId) : Option Nat :=
  registry.current.get? module

/-- The registered modules, in order. -/
def modules (registry : ModuleRegistry) : List ModuleId := registry.current.keys

/-- Change the cache of a number. -/
def modify (registry : ModuleRegistry) (number : Nat) (change : HierarchyCache → HierarchyCache) :
    ModuleRegistry :=
  { registry with caches := registry.caches.modify number change }

/-- Make a cache that belongs to no module yet; its number is that of the next cache. -/
def add (registry : ModuleRegistry) (cache : HierarchyCache) : ModuleRegistry :=
  { registry with caches := registry.caches ++ [cache] }

/-- Make a cache the one of its module, and dispose of the one that was. -/
def register (registry : ModuleRegistry) (cache : HierarchyCache) : ModuleRegistry :=
  let added := registry.add cache
  let registered :=
    { added with current := registry.current.insert cache.module registry.caches.length }
  match registry.cacheFor cache.module with
  | none => registered
  | some previous => registered.modify previous HierarchyCache.dispose

/-- Take a module out and dispose of its cache; was it registered? -/
def dispose (registry : ModuleRegistry) (module : ModuleId) : Bool × ModuleRegistry :=
  match registry.cacheFor module with
  | none => (false, registry)
  | some number =>
    (true, { registry with current := registry.current.erase module }.modify number
      HierarchyCache.dispose)

/-- Invalidate the cache of a module, if it has one. -/
def invalidate (registry : ModuleRegistry) (module : ModuleId) : ModuleRegistry :=
  match registry.cacheFor module with
  | none => registry
  | some number => registry.modify number HierarchyCache.invalidate

/-- Invalidate the caches of all modules. -/
def invalidateAll (registry : ModuleRegistry) : ModuleRegistry :=
  registry.current.values.foldl (fun r number => r.modify number HierarchyCache.invalidate)
    registry

/-- Ask the cache of a number; one that does not exist has no members. -/
def membersOf (registry : ModuleRegistry) (number : Nat) (className : String) (root : RootScope) :
    Option (List Symbol) × ModuleRegistry :=
  match registry.caches[number]? with
  | none => (some [], registry)
  | some cache =>
    let (answer, cache) := cache.membersOf className root
    (answer, registry.modify number fun _ => cache)

/-! ## Symbols for a processor -/

/-- Give symbols to a processor, which has a state of its own, until it wants no more; did it take
    them all? -/
def visit {σ : Type} (processor : σ → Symbol → Bool × σ) (s : σ) : List Symbol → Bool × σ
  | [] => (true, s)
  | symbol :: rest =>
    match processor s symbol with
    | (true, s) => visit processor s rest
    | (false, s) => (false, s)

/-- Give the members of a class, as its module sees it, to a processor.  Without a module, or a
    cache of the module, there is nothing to give.  `none` if the query crashes. -/
def process {σ : Type} (registry : ModuleRegistry) (module : Option ModuleId) (className : String)
    (root : RootScope) (processor : σ → Symbol → Bool × σ) (s : σ) :
    Option (Bool × σ) × ModuleRegistry :=
  match module.bind registry.cacheFor with
  | none => (some (true, s), registry)
  | some number =>
    let (members, registry) := registry.membersOf number className root
    (members.map (visit processor s), registry)

end ModuleRegistry

end Lineage
