/-
  Runs of a registry with all that can be done to its caches, and what they come to for one module.

  A cache can be used before it is registered, and afterwards by anyone who has it; and processing
  symbols is one more thing that is done with a registry.  Of such a history a module keeps one
  registration at most, the one that no later step ended (`Standing`).  The cache of this
  registration serves the module, and its own history is made of the steps that reach it
  (`ProviderStep.reaches`): those by its number and those of its module, of which no processor is a
  part.

  One step keeps that (`ServedBy.advance`).  The crux is again that no two modules share a cache, so
  that a step for one module does not reach the cache of another.
-/
import Lineage.Proofs.Hierarchy.RegistryRun
import Lineage.Proofs.Hierarchy.Transparency
import Mathlib.Data.List.Induction

namespace Lineage

/-! ## Histories -/

/-- What can be done with a registry and its caches. -/
inductive ProviderStep : Type 1 where
  /-- Register a cache, with which something may have been done already. -/
  | register (module : ModuleId) (source : AncestorSource) (provider : MemberProvider)
      (earlier : List CacheStep)
  | dispose (module : ModuleId)
  | invalidate (module : ModuleId)
  | invalidateAll
  /-- Do something with any cache that was ever registered, by its number. -/
  | use (number : Nat) (step : CacheStep)
  | process {σ : Type} (module : Option ModuleId) (className : String) (root : RootScope)
      (processor : σ → Symbol → Bool × σ) (s : σ)

namespace ProviderStep

/-- Does the cache of `module` cease to be its cache? -/
def ends (module : ModuleId) : ProviderStep → Bool
  | register other _ _ _ | dispose other => other = module
  | _ => false

/-- What a step does with the cache of a module, which has this number. -/
def reaches (module : ModuleId) (number : Nat) : ProviderStep → Option CacheStep
  | invalidate other => if other = module then some .invalidate else none
  | invalidateAll => some .invalidate
  | use other step => if other = number then some step else none
  | process other className root _ _ =>
    if other = some module then some (.query className root) else none
  | _ => none

end ProviderStep

/-- After each registration of a module it was disposed of. -/
def Absent (module : ModuleId) (history : List ProviderStep) : Prop :=
  ∀ before source provider earlier after,
    history = before ++ .register module source provider earlier :: after →
      .dispose module ∈ after

/-- A registration of a module that no later step ended. -/
structure Standing (module : ModuleId) (history : List ProviderStep) where
  before : List ProviderStep
  source : AncestorSource
  provider : MemberProvider
  earlier : List CacheStep
  after : List ProviderStep
  split : history = before ++ .register module source provider earlier :: after
  stays : ∀ step ∈ after, step.ends module = false

namespace HierarchyCache

theorem performAll_append (cache : HierarchyCache) (first second : List CacheStep) :
    cache.performAll (first ++ second) = (cache.performAll first).performAll second := by
  rw [performAll, List.foldl_append]
  rfl

/-- A cache stays with its module. -/
theorem module_perform (cache : HierarchyCache) (step : CacheStep) :
    (cache.perform step).module = cache.module := by
  cases step with
  | query className root => exact congrArg CacheLife.module (cache.life_membersOf className root)
  | invalidate | setSource _ | dispose => rfl

theorem module_performAll (cache : HierarchyCache) (steps : List CacheStep) :
    (cache.performAll steps).module = cache.module := by
  induction steps generalizing cache with
  | nil => rfl
  | cons step rest ih => exact (ih (cache.perform step)).trans (cache.module_perform step)

end HierarchyCache

namespace ModuleRegistry

variable {registry : ModuleRegistry} {module : ModuleId} {number : Nat} {cache : HierarchyCache}

/-- What one step makes of a registry. -/
def advance (registry : ModuleRegistry) : ProviderStep → ModuleRegistry
  | .register module source provider earlier =>
    registry.register ((HierarchyCache.fresh module source provider).performAll earlier)
  | .dispose module => (registry.dispose module).2
  | .invalidate module => registry.invalidate module
  | .invalidateAll => registry.invalidateAll
  | .use number step => registry.modify number (·.perform step)
  | .process module className root processor s =>
    (registry.process module className root processor s).2

/-- The registry after a history, from the empty one. -/
def ofHistory (history : List ProviderStep) : ModuleRegistry := history.foldl advance .empty

theorem ofHistory_concat (history : List ProviderStep) (step : ProviderStep) :
    ofHistory (history ++ [step]) = (ofHistory history).advance step := by
  rw [ofHistory, List.foldl_append]
  rfl

/-! ### Coherence -/

/-- A registry stays coherent when a cache is changed that goes on to be one of its module. -/
theorem Coherent.modify (hCoherent : registry.Coherent) (number : Nat)
    {change : HierarchyCache → HierarchyCache}
    (hChange : ∀ cache, (change cache).module = cache.module) :
    (registry.modify number change).Coherent := by
  intro module other hCurrent
  obtain ⟨life, hLife, hModule⟩ := hCoherent module other hCurrent
  obtain ⟨cache, hCache, rfl⟩ := Option.map_eq_some_iff.1 hLife
  rw [lifeOf?, getElem?_caches_modify, hCache]
  split
  · exact ⟨_, rfl, (hChange cache).trans hModule⟩
  · exact ⟨_, rfl, hModule⟩

/-- And when any cache is registered. -/
theorem Coherent.register (hCoherent : registry.Coherent) (cache : HierarchyCache) :
    (registry.register cache).Coherent := by
  intro module number hCurrent
  rw [cacheFor, current_register, OrderedMap.get?_insert] at hCurrent
  split at hCurrent
  · rename_i hOwn
    cases hCurrent
    rw [lifeOf?, hCoherent.getElem?_caches_registered]
    exact ⟨_, rfl, hOwn.symm⟩
  · obtain ⟨life, hLife, hModule⟩ := hCoherent module number hCurrent
    obtain ⟨kept, hKept, rfl⟩ := Option.map_eq_some_iff.1 hLife
    rw [lifeOf?, getElem?_caches_register _ _ (lt_length_of_lifeOf? hLife), hKept]
    split
    · exact ⟨_, rfl, hModule⟩
    · exact ⟨_, rfl, hModule⟩

/-- **A step keeps a registry coherent.** -/
theorem Coherent.advance (hCoherent : registry.Coherent) (step : ProviderStep) :
    (registry.advance step).Coherent := by
  cases step with
  | register module source provider earlier => exact hCoherent.register _
  | dispose module => exact hCoherent.perform (.dispose module)
  | invalidate module => exact hCoherent.perform (.invalidate module)
  | invalidateAll => exact hCoherent.perform .invalidateAll
  | use number step => exact hCoherent.modify number fun cache => cache.module_perform step
  | process module className root processor s =>
    rw [ModuleRegistry.advance, process_snd]
    cases module.bind registry.cacheFor with
    | none => exact hCoherent
    | some number => exact hCoherent.perform (.query number className root)

/-- After every history each module has a cache of its own. -/
theorem coherent_ofHistory (history : List ProviderStep) : (ofHistory history).Coherent := by
  induction history using List.reverseRecOn with
  | nil =>
    intro module number hCurrent
    cases hCurrent
  | append_singleton before step ih =>
    rw [ofHistory_concat]
    exact ih.advance step

/-! ### The number of a module's cache -/

/-- Registering changes the cache of one module. -/
theorem cacheFor_register (registry : ModuleRegistry) (module : ModuleId) (source : AncestorSource)
    (provider : MemberProvider) (earlier : List CacheStep) (other : ModuleId) :
    (registry.advance (.register module source provider earlier)).cacheFor other =
      if other = module then some registry.caches.length else registry.cacheFor other := by
  rw [advance, cacheFor, current_register, OrderedMap.get?_insert,
    HierarchyCache.module_performAll]
  rfl

/-- Disposing takes the cache of one module away. -/
theorem cacheFor_dispose (registry : ModuleRegistry) (module other : ModuleId) :
    (registry.advance (.dispose module)).cacheFor other =
      if other = module then none else registry.cacheFor other := by
  rw [advance, cacheFor, current_dispose]
  split
  · rename_i hSame
    rw [hSame]
    exact OrderedMap.get?_erase_self _ _
  · rename_i hOther
    exact OrderedMap.get?_erase_of_ne _ hOther

/-- A module keeps its cache, or goes on without one, until a step ends that. -/
theorem cacheFor_advance {step : ProviderStep} (hStays : step.ends module = false) :
    (registry.advance step).cacheFor module = registry.cacheFor module := by
  cases step with
  | register other source provider earlier =>
    rw [cacheFor_register, if_neg (Ne.symm (of_decide_eq_false hStays))]
  | dispose other => rw [cacheFor_dispose, if_neg (Ne.symm (of_decide_eq_false hStays))]
  | invalidate other => rw [advance, cacheFor, current_invalidate, cacheFor]
  | invalidateAll => rw [advance, cacheFor, current_invalidateAll, cacheFor]
  | use number step => rfl
  | process other className root processor s =>
    rw [advance, process_snd]
    cases other.bind registry.cacheFor with
    | none => rfl
    | some number =>
      dsimp only
      rw [perform, cacheFor, current_query, cacheFor]

/-! ### Registrations -/

end ModuleRegistry

/-- Where a step occurs in a history that goes one step further: at the end, or before. -/
theorem concat_split {history before after : List ProviderStep} {step first : ProviderStep}
    (hSplit : history ++ [step] = before ++ first :: after) :
    first = step ∧ after = [] ∨
      ∃ others, after = others ++ [step] ∧ history = before ++ first :: others := by
  rcases List.eq_nil_or_concat after with rfl | ⟨others, last, rfl⟩
  · left
    cases (List.append_inj' hSplit rfl).2
    exact ⟨rfl, rfl⟩
  · right
    rw [List.concat_eq_append, ← List.cons_append, ← List.append_assoc] at hSplit
    obtain ⟨hHistory, hLast⟩ := List.append_inj' hSplit rfl
    cases hLast
    exact ⟨others, List.concat_eq_append, hHistory⟩

theorem absent_nil (module : ModuleId) : Absent module [] := by
  intro before source provider earlier after hSplit
  cases before <;> cases hSplit

theorem absent_concat_dispose (module : ModuleId) (history : List ProviderStep) :
    Absent module (history ++ [.dispose module]) := by
  intro before source provider earlier after hSplit
  rcases concat_split hSplit with ⟨hSame, -⟩ | ⟨others, rfl, -⟩
  · cases hSame
  · exact List.mem_append_right others (List.mem_singleton_self _)

/-- An absent module stays absent until it is registered. -/
theorem Absent.concat {module : ModuleId} {history : List ProviderStep}
    (hAbsent : Absent module history) {step : ProviderStep} (hStays : step.ends module = false) :
    Absent module (history ++ [step]) := by
  intro before source provider earlier after hSplit
  rcases concat_split hSplit with ⟨rfl, -⟩ | ⟨others, rfl, hHistory⟩
  · exact absurd rfl (of_decide_eq_false hStays)
  · exact List.mem_append_left _ (hAbsent before source provider earlier others hHistory)

namespace ModuleRegistry

variable {registry : ModuleRegistry} {module : ModuleId} {number : Nat} {cache : HierarchyCache}

/-- **A module after a history**: it was disposed of after each registration, or one stands. -/
theorem absent_or_standing (module : ModuleId) (history : List ProviderStep) :
    Absent module history ∧ (ofHistory history).cacheFor module = none ∨
      Nonempty (Standing module history) := by
  induction history using List.reverseRecOn with
  | nil => exact .inl ⟨absent_nil module, rfl⟩
  | append_singleton history step ih =>
    -- A step that ends the module decides afresh; any other leaves it where it was.
    cases hEnds : step.ends module with
    | true =>
      cases step with
      | register other source provider earlier =>
        obtain rfl : other = module := of_decide_eq_true hEnds
        exact .inr ⟨⟨history, source, provider, earlier, [], rfl, by simp⟩⟩
      | dispose other =>
        obtain rfl : other = module := of_decide_eq_true hEnds
        refine .inl ⟨absent_concat_dispose other history, ?_⟩
        rw [ofHistory_concat, cacheFor_dispose, if_pos rfl]
      | invalidate _ | invalidateAll | use _ _ | process _ _ _ _ _ => cases hEnds
    | false =>
      rcases ih with ⟨hAbsent, hNone⟩ | hStanding
      · refine .inl ⟨hAbsent.concat hEnds, ?_⟩
        rw [ofHistory_concat, cacheFor_advance hEnds, hNone]
      · obtain ⟨before, source, provider, earlier, after, rfl, hStays⟩ := hStanding
        refine .inr ⟨⟨before, source, provider, earlier, after ++ [step], by simp, ?_⟩⟩
        intro later hMem
        rcases List.mem_append.1 hMem with hOld | hNew
        · exact hStays later hOld
        · rw [List.mem_singleton.1 hNew]
          exact hEnds

/-! ### The cache of a module -/

/-- A cache of this number serves a module. -/
structure ServedBy (registry : ModuleRegistry) (module : ModuleId) (number : Nat)
    (cache : HierarchyCache) : Prop where
  coherent : registry.Coherent
  current : registry.cacheFor module = some number
  cache : registry.caches[number]? = some cache

namespace ServedBy

/-- It serves no other module. -/
theorem cacheFor_ne (hServed : registry.ServedBy module number cache) {other : ModuleId}
    (hOther : other ≠ module) : registry.cacheFor other ≠ some number := by
  intro hShared
  have hLife : registry.lifeOf? number = some cache.life := by
    rw [lifeOf?, hServed.cache, Option.map_some]
  exact hOther ((hServed.coherent.module_eq hLife hShared).symm.trans
    (hServed.coherent.module_eq hLife hServed.current))

theorem lt_length (hServed : registry.ServedBy module number cache) :
    number < registry.caches.length :=
  (List.getElem?_eq_some_iff.1 hServed.cache).1

/-- **The cache of a module after a step**: what reaches it is done with it, and no more. -/
theorem caches_advance (hServed : registry.ServedBy module number cache) {step : ProviderStep}
    (hStays : step.ends module = false) :
    (registry.advance step).caches[number]? =
      some (cache.performAll (step.reaches module number).toList) := by
  -- One case for each step: does it reach the cache of this number, and as which step of it?
  cases step with
  | register other source provider earlier =>
    have hOther : other ≠ module := of_decide_eq_false hStays
    have hModule : ((HierarchyCache.fresh other source provider).performAll earlier).module =
        other :=
      HierarchyCache.module_performAll _ earlier
    rw [advance, getElem?_caches_register _ _ hServed.lt_length, hModule,
      if_neg (hServed.cacheFor_ne hOther)]
    exact hServed.cache
  | dispose other =>
    have hOther : other ≠ module := of_decide_eq_false hStays
    rw [advance, getElem?_caches_dispose, if_neg (hServed.cacheFor_ne hOther)]
    exact hServed.cache
  | invalidate other =>
    rw [advance, getElem?_caches_invalidate, hServed.cache, ProviderStep.reaches]
    by_cases hOther : other = module
    · rw [if_pos hOther, hOther, if_pos hServed.current]
      rfl
    · rw [if_neg hOther, if_neg (hServed.cacheFor_ne hOther)]
      rfl
  | invalidateAll =>
    rw [advance, hServed.coherent.getElem?_caches_invalidateAll, hServed.cache,
      if_pos (mem_values_iff.2 ⟨module, hServed.current⟩)]
    rfl
  | use other step =>
    rw [advance, getElem?_caches_modify, hServed.cache, ProviderStep.reaches]
    by_cases hOther : other = number
    · rw [if_pos hOther, if_pos hOther.symm]
      rfl
    · rw [if_neg hOther, if_neg (Ne.symm hOther)]
      rfl
  | process other className root processor s =>
    rw [advance, process_snd, ProviderStep.reaches]
    by_cases hOther : other = some module
    · rw [if_pos hOther, hOther, Option.bind_some, hServed.current]
      dsimp only
      rw [perform, getElem?_caches_query, if_pos rfl, hServed.cache]
      rfl
    · rw [if_neg hOther]
      cases hAsked : other.bind registry.cacheFor with
      | none => exact hServed.cache
      | some asked =>
        obtain ⟨owner, rfl, hOwner⟩ := Option.bind_eq_some_iff.1 hAsked
        have hApart : number ≠ asked := by
          rintro rfl
          exact hServed.cacheFor_ne (fun hSame => hOther (congrArg some hSame)) hOwner
        dsimp only
        rw [perform, getElem?_caches_query, if_neg hApart]
        exact hServed.cache

/-- A cache goes on serving its module until that is registered again or disposed. -/
theorem advance (hServed : registry.ServedBy module number cache) {step : ProviderStep}
    (hStays : step.ends module = false) :
    (registry.advance step).ServedBy module number
      (cache.performAll (step.reaches module number).toList) where
  coherent := hServed.coherent.advance step
  current := (cacheFor_advance hStays).trans hServed.current
  cache := hServed.caches_advance hStays

end ServedBy

end ModuleRegistry

namespace Standing

variable {module : ModuleId} {history : List ProviderStep}

/-- The number of the cache that was registered. -/
def number (standing : Standing module history) : Nat :=
  (ModuleRegistry.ofHistory standing.before).caches.length

/-- All that was done with it, before it was registered and since. -/
def steps (standing : Standing module history) : List CacheStep :=
  standing.earlier ++ standing.after.filterMap (·.reaches module standing.number)

/-- What became of it. -/
def cache (standing : Standing module history) : HierarchyCache :=
  (HierarchyCache.fresh module standing.source standing.provider).performAll standing.steps

/-- The uncached hierarchy with the same history. -/
def uncached (standing : Standing module history) : Uncached :=
  ({ source := standing.source } : Uncached).performAll standing.steps

/-- The cache of a module that stands is a mirror of its machine without memo. -/
theorem mirrors (standing : Standing module history) :
    standing.cache.Mirrors standing.provider.members standing.uncached :=
  (HierarchyCache.mirrors_fresh module standing.source standing.provider).performAll standing.steps

end Standing

namespace ModuleRegistry

/-- **The cache of a module after a history** is the one whose registration stands, with all that
    was done with it. -/
theorem servedBy_ofHistory {module : ModuleId} {history : List ProviderStep}
    (standing : Standing module history) :
    (ofHistory history).ServedBy module standing.number standing.cache := by
  obtain ⟨before, source, provider, earlier, after, rfl, hStays⟩ := standing
  show (ofHistory (before ++ .register module source provider earlier :: after)).ServedBy module
    (ofHistory before).caches.length
    ((HierarchyCache.fresh module source provider).performAll
      (earlier ++ after.filterMap (·.reaches module (ofHistory before).caches.length)))
  -- On the steps after the registration: none of them ends the module, and each reaches its cache
  -- or not.
  induction after using List.reverseRecOn with
  | nil =>
    rw [ofHistory_concat, List.filterMap_nil, List.append_nil]
    exact
      { coherent := (coherent_ofHistory before).advance _
        current := by rw [cacheFor_register, if_pos rfl]
        cache := (coherent_ofHistory before).getElem?_caches_registered _ }
  | append_singleton after step ih =>
    obtain ⟨hBefore, hStep⟩ := List.forall_mem_append.1 hStays
    have hServed := (ih hBefore).advance (hStep step (List.mem_singleton_self step))
    have hHistory : before ++ .register module source provider earlier :: (after ++ [step]) =
        (before ++ .register module source provider earlier :: after) ++ [step] := by simp
    have hSteps : (after ++ [step]).filterMap (·.reaches module (ofHistory before).caches.length) =
        after.filterMap (·.reaches module (ofHistory before).caches.length) ++
          (step.reaches module (ofHistory before).caches.length).toList := by
      rw [List.filterMap_append, List.filterMap_cons, List.filterMap_nil]
      cases step.reaches module (ofHistory before).caches.length <;> rfl
    rw [hHistory, ofHistory_concat, hSteps, ← List.append_assoc,
      HierarchyCache.performAll_append]
    exact hServed

end ModuleRegistry

end Lineage
