/-
  Runs of a module registry, and what one step does to one cache.

  A cache is the current one of its module from the step that registers it to the step that ENDS
  this, by registering another cache for the module or by disposing of the module.  A step that
  RENEWS the module starts a new generation of the cache.  To a cache that is current nothing else
  happens, and to one that is not current nothing happens at all (`lifeOf?_perform`); queries leave
  the lives of all caches alone.

  This needs that a module's cache is one that was made for the module (`Coherent`): two modules
  never have one cache, so that no step reaches a cache twice.
-/
import Lineage.Hierarchy.Registry
import Lineage.Proofs.Hierarchy.Run

namespace Lineage

/-! ## Steps -/

/-- What is done with a registry. -/
inductive RegistryStep where
  /-- Register a cache that was just made. -/
  | register (module : ModuleId) (source : AncestorSource) (provider : MemberProvider)
  | dispose (module : ModuleId)
  | invalidate (module : ModuleId)
  | invalidateAll
  /-- Ask any cache that was ever registered, by its number. -/
  | query (number : Nat) (className : String) (root : RootScope)

namespace RegistryStep

/-- Does the step open a cache? -/
def registers : RegistryStep → Bool
  | register .. => true
  | _ => false

/-- Does the cache of `module` cease to be its cache? -/
def ends (module : ModuleId) : RegistryStep → Bool
  | register other _ _ | dispose other => other = module
  | _ => false

/-- Does the cache of `module` start a new generation, and go on? -/
def renews (module : ModuleId) : RegistryStep → Bool
  | invalidate other => other = module
  | invalidateAll => true
  | _ => false

end RegistryStep

/-- What a step does to the life of a cache that is current. -/
def CacheLife.step (life : CacheLife) (step : RegistryStep) : CacheLife :=
  if step.ends life.module then
    { life with generation := life.generation + 1, disposed := true }
  else if step.renews life.module then { life with generation := life.generation + 1 }
  else life

namespace CacheLife

variable {life : CacheLife} {step : RegistryStep}

/-- A step that ends a life disposes the cache, which also counts as a renewal. -/
theorem step_of_ends (hEnds : step.ends life.module = true) :
    life.step step = { life with generation := life.generation + 1, disposed := true } := by
  rw [CacheLife.step, if_pos hEnds]

theorem step_of_renews (hEnds : step.ends life.module = false)
    (hRenews : step.renews life.module = true) :
    life.step step = { life with generation := life.generation + 1 } := by
  rw [CacheLife.step, if_neg (Bool.eq_false_iff.1 hEnds), if_pos hRenews]

theorem step_of_neither (hEnds : step.ends life.module = false)
    (hRenews : step.renews life.module = false) : life.step step = life := by
  rw [CacheLife.step, if_neg (Bool.eq_false_iff.1 hEnds), if_neg (Bool.eq_false_iff.1 hRenews)]

/-- No step gives a cache to another module. -/
@[simp] theorem module_step (life : CacheLife) (step : RegistryStep) :
    (life.step step).module = life.module := by
  rw [CacheLife.step]
  split
  · rfl
  · split <;> rfl

end CacheLife

namespace ModuleRegistry

/-- What one step makes of a registry. -/
def perform (registry : ModuleRegistry) : RegistryStep → ModuleRegistry
  | .register module source provider => registry.register (.fresh module source provider)
  | .dispose module => (registry.dispose module).2
  | .invalidate module => registry.invalidate module
  | .invalidateAll => registry.invalidateAll
  | .query number className root => (registry.membersOf number className root).2

/-- What a log of steps makes of the empty registry. -/
def performAll (steps : List RegistryStep) : ModuleRegistry := steps.foldl perform .empty

theorem performAll_concat (steps : List RegistryStep) (step : RegistryStep) :
    performAll (steps ++ [step]) = (performAll steps).perform step := by
  rw [performAll, List.foldl_append]
  rfl

variable {registry : ModuleRegistry}

/-- To process symbols is to query the cache of the module, if there is one, for the registry. -/
theorem process_snd {σ : Type} (registry : ModuleRegistry) (module : Option ModuleId)
    (className : String) (root : RootScope) (processor : σ → Symbol → Bool × σ) (s : σ) :
    (registry.process module className root processor s).2 =
      match module.bind registry.cacheFor with
      | none => registry
      | some number => registry.perform (.query number className root) := by
  rw [process]
  cases module.bind registry.cacheFor <;> rfl

/-! ## Caches by number -/

/-- Only the cache of this number is changed. -/
theorem getElem?_caches_modify (registry : ModuleRegistry) (number other : Nat)
    (change : HierarchyCache → HierarchyCache) :
    (registry.modify number change).caches[other]? =
      if other = number then registry.caches[other]?.map change else registry.caches[other]? := by
  rw [modify, List.getElem?_modify]
  split
  · rename_i hOther
    subst hOther
    simp
  · rename_i hOther
    simp [Ne.symm hOther]

/-- A cache that is registered comes after all others, and its predecessor is disposed. -/
theorem getElem?_caches_register (registry : ModuleRegistry) (cache : HierarchyCache)
    {number : Nat} (hLt : number < registry.caches.length) :
    (registry.register cache).caches[number]? =
      if registry.cacheFor cache.module = some number then
        registry.caches[number]?.map HierarchyCache.dispose
      else registry.caches[number]? := by
  have hAdded : (registry.add cache).caches[number]? = registry.caches[number]? :=
    List.getElem?_append_left hLt
  rw [register]
  cases hPrevious : registry.cacheFor cache.module with
  | none => exact hAdded
  | some previous =>
    dsimp only
    rw [getElem?_caches_modify]
    simp [eq_comm, hAdded]

/-- Disposing a module disposes the cache that it has now. -/
theorem getElem?_caches_dispose (registry : ModuleRegistry) (module : ModuleId) (number : Nat) :
    (registry.dispose module).2.caches[number]? =
      if registry.cacheFor module = some number then
        registry.caches[number]?.map HierarchyCache.dispose
      else registry.caches[number]? := by
  rw [dispose]
  cases hCurrent : registry.cacheFor module with
  | none => rfl
  | some current =>
    dsimp only
    rw [getElem?_caches_modify]
    simp [eq_comm]

/-- **An invalidation reaches the cache of its module**, and no other. -/
theorem getElem?_caches_invalidate (registry : ModuleRegistry) (module : ModuleId) (number : Nat) :
    (registry.invalidate module).caches[number]? =
      if registry.cacheFor module = some number then
        registry.caches[number]?.map HierarchyCache.invalidate
      else registry.caches[number]? := by
  rw [invalidate]
  cases hCurrent : registry.cacheFor module with
  | none => rfl
  | some current =>
    rw [getElem?_caches_modify]
    simp [eq_comm]

/-- A query reaches the cache that is asked. -/
theorem getElem?_caches_query (registry : ModuleRegistry) (number other : Nat)
    (className : String) (root : RootScope) :
    (registry.membersOf number className root).2.caches[other]? =
      if other = number then
        registry.caches[other]?.map fun cache => (cache.membersOf className root).2
      else registry.caches[other]? := by
  rw [membersOf]
  -- A number that was not given out has no cache, so nothing is asked.
  cases hCache : registry.caches[number]? with
  | none =>
    dsimp only
    split
    · rename_i hOther
      rw [hOther, hCache]
      rfl
    · rfl
  | some cache =>
    dsimp only
    rw [getElem?_caches_modify]
    split
    · rename_i hOther
      rw [hOther, hCache]
      rfl
    · rfl

/-- To change the caches of some numbers, each once, is to change these caches. -/
theorem getElem?_caches_foldl_modify {numbers : List Nat} (hDistinct : numbers.Nodup)
    (change : HierarchyCache → HierarchyCache) (registry : ModuleRegistry) (other : Nat) :
    (numbers.foldl (fun r number => r.modify number change) registry).caches[other]? =
      if other ∈ numbers then registry.caches[other]?.map change
      else registry.caches[other]? := by
  induction numbers generalizing registry with
  | nil => simp
  | cons number rest ih =>
    obtain ⟨hFirst, hRest⟩ := List.nodup_cons.1 hDistinct
    rw [List.foldl_cons, ih hRest, getElem?_caches_modify]
    by_cases hOther : other = number
    · subst hOther
      simp [hFirst]
    · simp [hOther]

/-! ## Which cache is whose -/

theorem current_register (registry : ModuleRegistry) (cache : HierarchyCache) :
    (registry.register cache).current =
      registry.current.insert cache.module registry.caches.length := by
  rw [register]
  cases registry.cacheFor cache.module <;> rfl

theorem current_dispose (registry : ModuleRegistry) (module : ModuleId) :
    (registry.dispose module).2.current = registry.current.erase module := by
  rw [dispose]
  cases hCurrent : registry.cacheFor module with
  | some number => rfl
  | none => exact (OrderedMap.erase_of_get?_eq_none hCurrent).symm

theorem current_invalidate (registry : ModuleRegistry) (module : ModuleId) :
    (registry.invalidate module).current = registry.current := by
  rw [invalidate]
  cases registry.cacheFor module <;> rfl

/-- What no change of one cache touches, no change of several touches. -/
theorem foldl_modify_keeps {ρ : Type} (view : ModuleRegistry → ρ)
    {change : HierarchyCache → HierarchyCache}
    (hKeeps : ∀ r number, view (modify r number change) = view r) (numbers : List Nat)
    (registry : ModuleRegistry) :
    view (numbers.foldl (fun r number => r.modify number change) registry) = view registry := by
  induction numbers generalizing registry with
  | nil => rfl
  | cons number rest ih => rw [List.foldl_cons, ih, hKeeps]

theorem current_invalidateAll (registry : ModuleRegistry) :
    registry.invalidateAll.current = registry.current :=
  foldl_modify_keeps current (fun _ _ => rfl) registry.current.values registry

theorem current_query (registry : ModuleRegistry) (number : Nat) (className : String)
    (root : RootScope) :
    (registry.membersOf number className root).2.current = registry.current := by
  rw [membersOf]
  cases registry.caches[number]? <;> rfl

/-! ## Coherence -/

/-- The life of the cache of a number. -/
def lifeOf? (registry : ModuleRegistry) (number : Nat) : Option CacheLife :=
  registry.caches[number]?.map HierarchyCache.life

/-- The cache of a module was made for this module. -/
def Coherent (registry : ModuleRegistry) : Prop :=
  ∀ module number, registry.cacheFor module = some number →
    ∃ life, registry.lifeOf? number = some life ∧ life.module = module

/-- The cache that a module has is a cache of that module. -/
theorem Coherent.module_eq (hCoherent : registry.Coherent) {number : Nat} {life : CacheLife}
    (hLife : registry.lifeOf? number = some life) {module : ModuleId}
    (hCurrent : registry.cacheFor module = some number) : life.module = module := by
  obtain ⟨other, hOther, hModule⟩ := hCoherent module number hCurrent
  rw [hLife] at hOther
  cases hOther
  exact hModule

theorem lt_length_of_lifeOf? {number : Nat} {life : CacheLife}
    (hLife : registry.lifeOf? number = some life) : number < registry.caches.length := by
  refine Nat.lt_of_not_le fun hLe => ?_
  rw [lifeOf?, List.getElem?_eq_none hLe] at hLife
  cases hLife

/-- No cache belongs to two modules. -/
theorem Coherent.nodup_values (hCoherent : registry.Coherent) :
    registry.current.values.Nodup := by
  rw [OrderedMap.values, List.Nodup, List.pairwise_map]
  refine (List.pairwise_map.1 registry.current.distinct).imp_of_mem ?_
  intro first second hFirst hSecond hApart hSame
  obtain ⟨life, hLife, hModule⟩ :=
    hCoherent first.1 first.2 (OrderedMap.get?_eq_some_iff_mem.2 hFirst)
  rw [hSame] at hLife
  exact hApart (hModule.symm.trans
    (hCoherent.module_eq hLife (OrderedMap.get?_eq_some_iff_mem.2 hSecond)))

/-- The caches in use are those that modules have. -/
theorem mem_values_iff {number : Nat} :
    number ∈ registry.current.values ↔ ∃ module, registry.cacheFor module = some number := by
  rw [OrderedMap.values, List.mem_map]
  constructor
  · rintro ⟨⟨module, _⟩, hMem, rfl⟩
    exact ⟨module, OrderedMap.get?_eq_some_iff_mem.2 hMem⟩
  · rintro ⟨module, hCurrent⟩
    exact ⟨(module, number), OrderedMap.get?_eq_some_iff_mem.1 hCurrent, rfl⟩

/-- **An invalidation of all modules reaches each current cache once**, and no other. -/
theorem Coherent.getElem?_caches_invalidateAll (hCoherent : registry.Coherent) (number : Nat) :
    registry.invalidateAll.caches[number]? =
      if number ∈ registry.current.values then
        registry.caches[number]?.map HierarchyCache.invalidate
      else registry.caches[number]? :=
  getElem?_caches_foldl_modify hCoherent.nodup_values HierarchyCache.invalidate registry number

/-! ## One step -/

/-- A step that changes the cache of one module does to it what it does to the life of a current
    cache, and to other lives nothing. -/
theorem Coherent.map_life_of_change (hCoherent : registry.Coherent) {number : Nat}
    {cache : HierarchyCache} (hCache : registry.caches[number]? = some cache) {module : ModuleId}
    {change : HierarchyCache → HierarchyCache} {step : RegistryStep}
    (hChange : cache.module = module → (change cache).life = cache.life.step step)
    (hOther : cache.module ≠ module → cache.life.step step = cache.life) :
    (if registry.cacheFor module = some number then (some cache).map change
        else some cache).map HierarchyCache.life =
      some (if registry.cacheFor cache.module = some number then cache.life.step step
        else cache.life) := by
  have hLife : registry.lifeOf? number = some cache.life := by rw [lifeOf?, hCache, Option.map_some]
  by_cases hCurrent : registry.cacheFor module = some number
  · have hOwn : cache.module = module := hCoherent.module_eq hLife hCurrent
    rw [hOwn, if_pos hCurrent, if_pos hCurrent, Option.map_some, Option.map_some, hChange hOwn]
  · rw [if_neg hCurrent, Option.map_some]
    by_cases hOwn : cache.module = module
    · rw [hOwn, if_neg hCurrent]
    · rw [hOther hOwn, ite_self]

/-- **A step changes the life of a current cache alone**, as it ends or renews it. -/
theorem Coherent.lifeOf?_perform (hCoherent : registry.Coherent) {number : Nat} {life : CacheLife}
    (hLife : registry.lifeOf? number = some life) (step : RegistryStep) :
    (registry.perform step).lifeOf? number =
      some (if registry.cacheFor life.module = some number then life.step step else life) := by
  have hLt := lt_length_of_lifeOf? hLife
  obtain ⟨cache, hCache, rfl⟩ := Option.map_eq_some_iff.1 hLife
  rw [lifeOf?]
  -- One case for each step: whether it acts on this life depends on the module, which is that of
  -- the cache by `hCoherent`.
  cases step with
  | register module source provider =>
    rw [perform, getElem?_caches_register _ _ hLt, hCache]
    refine hCoherent.map_life_of_change hCache (fun hModule => ?_) fun hOther => ?_
    · rw [HierarchyCache.life_dispose, CacheLife.step_of_ends]
      exact decide_eq_true hModule.symm
    · exact CacheLife.step_of_neither (decide_eq_false (Ne.symm hOther)) rfl
  | dispose module =>
    rw [perform, getElem?_caches_dispose, hCache]
    refine hCoherent.map_life_of_change hCache (fun hModule => ?_) fun hOther => ?_
    · rw [HierarchyCache.life_dispose, CacheLife.step_of_ends]
      exact decide_eq_true hModule.symm
    · exact CacheLife.step_of_neither (decide_eq_false (Ne.symm hOther)) rfl
  | invalidate module =>
    rw [perform, getElem?_caches_invalidate, hCache]
    refine hCoherent.map_life_of_change hCache (fun hModule => ?_) fun hOther => ?_
    · rw [HierarchyCache.life_invalidate, CacheLife.step_of_renews rfl]
      exact decide_eq_true hModule.symm
    · exact CacheLife.step_of_neither rfl (decide_eq_false (Ne.symm hOther))
  | invalidateAll =>
    rw [perform, hCoherent.getElem?_caches_invalidateAll, hCache, CacheLife.step_of_renews rfl rfl]
    -- All caches in use are reached, so this one is if its module has it.
    have hReached : number ∈ registry.current.values ↔
        registry.cacheFor cache.module = some number := by
      rw [mem_values_iff]
      refine ⟨?_, fun hCurrent => ⟨_, hCurrent⟩⟩
      rintro ⟨module, hCurrent⟩
      rwa [← hCoherent.module_eq hLife hCurrent] at hCurrent
    by_cases hCurrent : registry.cacheFor cache.module = some number
    · rw [if_pos (hReached.2 hCurrent)]
      exact congrArg some (if_pos hCurrent).symm
    · rw [if_neg fun hMem => hCurrent (hReached.1 hMem)]
      exact congrArg some (if_neg hCurrent).symm
  | query asked className root =>
    rw [perform, getElem?_caches_query, hCache, CacheLife.step_of_neither rfl rfl, ite_self]
    split
    · exact congrArg some (cache.life_membersOf className root)
    · rfl

/-- **A cache stays the current one** of its module until a step ends this. -/
theorem Coherent.cacheFor_perform_iff (hCoherent : registry.Coherent) {number : Nat}
    {life : CacheLife} (hLife : registry.lifeOf? number = some life) (step : RegistryStep)
    (module : ModuleId) :
    (registry.perform step).cacheFor module = some number ↔
      registry.cacheFor module = some number ∧ step.ends life.module = false := by
  have hOwn : registry.cacheFor module = some number → life.module = module :=
    hCoherent.module_eq hLife
  rw [cacheFor]
  cases step with
  | register opened source provider =>
    rw [perform, current_register, OrderedMap.get?_insert]
    by_cases hOpened : module = opened
    · -- The new cache has a number of its own.
      rw [if_pos (show module = (HierarchyCache.fresh opened source provider).module from hOpened)]
      refine iff_of_false (fun hNew => ?_) fun ⟨hCurrent, hEnds⟩ => ?_
      · exact absurd (Option.some.inj hNew) (Nat.ne_of_gt (lt_length_of_lifeOf? hLife))
      · exact of_decide_eq_false hEnds (hOpened.symm.trans (hOwn hCurrent).symm)
    · rw [if_neg (show module ≠ (HierarchyCache.fresh opened source provider).module from hOpened)]
      refine ⟨fun hCurrent => ⟨hCurrent, decide_eq_false ?_⟩, And.left⟩
      rw [hOwn hCurrent]
      exact Ne.symm hOpened
  | dispose closed =>
    rw [perform, current_dispose]
    by_cases hClosed : module = closed
    · subst hClosed
      -- The module has no cache any more, and the step has ended the life of the one it had.
      rw [OrderedMap.get?_erase_self]
      refine iff_of_false (by simp) fun ⟨hCurrent, hEnds⟩ => ?_
      exact of_decide_eq_false hEnds (hOwn hCurrent).symm
    · rw [OrderedMap.get?_erase_of_ne _ hClosed]
      refine ⟨fun hCurrent => ⟨hCurrent, decide_eq_false ?_⟩, And.left⟩
      rw [hOwn hCurrent]
      exact Ne.symm hClosed
  | invalidate other =>
    rw [perform, current_invalidate]
    exact (and_iff_left rfl).symm
  | invalidateAll =>
    rw [perform, current_invalidateAll]
    exact (and_iff_left rfl).symm
  | query asked className root =>
    rw [perform, current_query]
    exact (and_iff_left rfl).symm

/-- A module has the cache it had before, or the one that is registered now. -/
theorem cacheFor_perform_cases {step : RegistryStep} {module : ModuleId} {number : Nat}
    (hCurrent : (registry.perform step).cacheFor module = some number) :
    registry.cacheFor module = some number ∨
      ∃ source provider, step = .register module source provider ∧
        number = registry.caches.length := by
  rw [cacheFor] at hCurrent
  -- Only a registration gives a module a cache that it did not have.
  cases step with
  | register opened source provider =>
    rw [perform, current_register, OrderedMap.get?_insert] at hCurrent
    split at hCurrent
    · rename_i hOpened
      cases hOpened
      exact .inr ⟨source, provider, rfl, (Option.some.inj hCurrent).symm⟩
    · exact .inl hCurrent
  | dispose closed =>
    rw [perform, current_dispose] at hCurrent
    by_cases hClosed : module = closed
    · rw [hClosed, OrderedMap.get?_erase_self] at hCurrent
      cases hCurrent
    · rw [OrderedMap.get?_erase_of_ne _ hClosed] at hCurrent
      exact .inl hCurrent
  | invalidate other =>
    rw [perform, current_invalidate] at hCurrent
    exact .inl hCurrent
  | invalidateAll =>
    rw [perform, current_invalidateAll] at hCurrent
    exact .inl hCurrent
  | query asked className root =>
    rw [perform, current_query] at hCurrent
    exact .inl hCurrent

/-- A cache that is registered comes after all others, as it is. -/
theorem Coherent.getElem?_caches_registered (hCoherent : registry.Coherent)
    (cache : HierarchyCache) :
    (registry.register cache).caches[registry.caches.length]? = some cache := by
  have hAdded : (registry.caches ++ [cache])[registry.caches.length]? = some cache := by simp
  rw [register]
  cases hPrevious : registry.cacheFor cache.module with
  | none => exact hAdded
  | some previous =>
    obtain ⟨life, hLife, -⟩ := hCoherent _ _ hPrevious
    dsimp only
    rw [getElem?_caches_modify, if_neg (Nat.ne_of_gt (lt_length_of_lifeOf? hLife))]
    exact hAdded

/-- A cache that is registered begins its life as the cache of its module. -/
theorem Coherent.registered (hCoherent : registry.Coherent) (module : ModuleId)
    (source : AncestorSource) (provider : MemberProvider) :
    (registry.perform (.register module source provider)).lifeOf? registry.caches.length =
        some { module } ∧
      (registry.perform (.register module source provider)).cacheFor module =
        some registry.caches.length := by
  constructor
  · rw [perform, lifeOf?, hCoherent.getElem?_caches_registered]
    rfl
  · rw [cacheFor, perform, current_register]
    exact OrderedMap.get?_insert_self _ _ _

/-- **A step keeps a registry coherent.** -/
theorem Coherent.perform (hCoherent : registry.Coherent) (step : RegistryStep) :
    (registry.perform step).Coherent := by
  intro module number hCurrent
  rcases cacheFor_perform_cases hCurrent with hBefore | ⟨source, provider, rfl, rfl⟩
  · obtain ⟨life, hLife, hModule⟩ := hCoherent module number hBefore
    refine ⟨_, hCoherent.lifeOf?_perform hLife step, ?_⟩
    split
    · rw [CacheLife.module_step, hModule]
    · exact hModule
  · exact ⟨_, (hCoherent.registered module source provider).1, rfl⟩

/-- After every log each module has a cache of its own. -/
theorem coherent_performAll (steps : List RegistryStep) : (performAll steps).Coherent := by
  rw [← List.reverse_reverse steps]
  induction steps.reverse with
  | nil =>
    intro module number hCurrent
    cases hCurrent
  | cons step rest ih =>
    rw [List.reverse_cons, performAll_concat]
    exact ih.perform step

/-! ## Numbers -/

theorem length_caches_modify (registry : ModuleRegistry) (number : Nat)
    (change : HierarchyCache → HierarchyCache) :
    (registry.modify number change).caches.length = registry.caches.length := by
  rw [modify, List.length_modify]

/-- A cache is added by registering one, and never taken away. -/
theorem length_caches_perform (registry : ModuleRegistry) (step : RegistryStep) :
    (registry.perform step).caches.length =
      registry.caches.length + if step.registers then 1 else 0 := by
  -- The one step that opens a cache also disposes the previous one, which adds none.
  cases step with
  | register module source provider =>
    have hAdded : (registry.caches ++ [HierarchyCache.fresh module source provider]).length =
        registry.caches.length + 1 := List.length_append
    rw [perform, register]
    cases registry.cacheFor (HierarchyCache.fresh module source provider).module with
    | none => exact hAdded
    | some previous => exact (length_caches_modify _ _ _).trans hAdded
  | dispose module =>
    rw [perform, dispose]
    cases registry.cacheFor module with
    | none => rfl
    | some number => exact length_caches_modify _ _ _
  | invalidate module =>
    rw [perform, invalidate]
    cases registry.cacheFor module with
    | none => rfl
    | some number => exact length_caches_modify _ _ _
  | invalidateAll =>
    exact foldl_modify_keeps (fun r => r.caches.length)
      (fun r number => length_caches_modify r number _) registry.current.values registry
  | query number className root =>
    rw [perform, membersOf]
    cases registry.caches[number]? with
    | none => rfl
    | some cache => exact length_caches_modify _ _ _

/-- The number of a cache is the number of those that were registered before it. -/
theorem length_caches_performAll (steps : List RegistryStep) :
    (performAll steps).caches.length = steps.countP (·.registers) := by
  rw [← List.reverse_reverse steps]
  induction steps.reverse with
  | nil => rfl
  | cons step rest ih =>
    rw [List.reverse_cons, performAll_concat, length_caches_perform, ih, List.countP_append,
      List.countP_singleton]

end ModuleRegistry

end Lineage
