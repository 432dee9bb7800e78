/-
  The lives of modules and caches in a registry, read off the log of what was done with it.

  A CACHE lives from the step that registers it.  The steps after that decide all of its life
  (`lifeOf?_performAll`): it is disposed once one of them ends it, and its generation counts the
  steps that renewed its module until then, and the end itself.  It is the cache of its module for
  as long as no step has ended that.

  A MODULE is listed from the step that registered it first since it was last disposed (`since?`).
  Registering it again does not move it, and disposing of it does not move the others, so the list
  is in the order of these steps (`InOrder`).
-/
import Lineage.Proofs.Hierarchy.RegistryRun

namespace Lineage

/-! ## What a log says of a cache -/

/-- Has the cache of `module` ceased to be its cache after these steps? -/
def ended (module : ModuleId) (steps : List RegistryStep) : Bool := steps.any (·.ends module)

/-- The generation that a cache of `module` is in after these steps of its life. -/
def generations (module : ModuleId) (steps : List RegistryStep) : Nat :=
  (steps.takeWhile fun step => !step.ends module).countP (·.renews module) +
    if ended module steps then 1 else 0

/-- The life of a cache of `module` after these steps. -/
def lifeAfter (module : ModuleId) (steps : List RegistryStep) : CacheLife :=
  ⟨module, generations module steps, ended module steps⟩

theorem ended_concat (module : ModuleId) (steps : List RegistryStep) (step : RegistryStep) :
    ended module (steps ++ [step]) = (ended module steps || step.ends module) := by
  simp [ended]

/-- After the end no step counts. -/
theorem generations_concat_of_ended {module : ModuleId} {steps : List RegistryStep}
    (hEnded : ended module steps = true) (step : RegistryStep) :
    generations module (steps ++ [step]) = generations module steps := by
  have hShort : (steps.takeWhile fun step => !step.ends module).length ≠ steps.length := by
    intro hAll
    obtain ⟨last, hMem, hEnds⟩ := List.any_eq_true.1 hEnded
    rw [← (List.takeWhile_prefix _).eq_of_length hAll] at hMem
    have hGoesOn := List.all_eq_true.1 List.all_takeWhile last hMem
    rw [hEnds] at hGoesOn
    cases hGoesOn
  rw [generations, generations, List.takeWhile_append, if_neg hShort, ended_concat, hEnded,
    Bool.true_or]

/-- Until the end each step counts that ends or renews the module. -/
theorem generations_concat_of_not_ended {module : ModuleId} {steps : List RegistryStep}
    (hEnded : ended module steps = false) (step : RegistryStep) :
    generations module (steps ++ [step]) =
      generations module steps + if step.ends module || step.renews module then 1 else 0 := by
  have hGoesOn : ∀ s ∈ steps, (!s.ends module) = true := by
    intro s hMem
    simpa using List.any_eq_false.1 hEnded s hMem
  have hAll : (steps ++ []).takeWhile (fun s => !s.ends module) = steps ++ [].takeWhile _ :=
    List.takeWhile_append_of_pos hGoesOn
  rw [List.append_nil, List.takeWhile_nil, List.append_nil] at hAll
  rw [generations, generations, List.takeWhile_append_of_pos hGoesOn, hAll, ended_concat, hEnded,
    List.countP_append]
  cases hStep : step.ends module <;> simp [hStep]

/-- One more step changes a life as long as it has not ended. -/
theorem lifeAfter_concat (module : ModuleId) (steps : List RegistryStep) (step : RegistryStep) :
    lifeAfter module (steps ++ [step]) =
      if ended module steps = false then (lifeAfter module steps).step step
      else lifeAfter module steps := by
  cases hEnded : ended module steps with
  | true =>
    rw [if_neg (by simp), lifeAfter, generations_concat_of_ended hEnded, ended_concat, hEnded,
      lifeAfter, hEnded, Bool.true_or]
  | false =>
    rw [if_pos rfl, lifeAfter, generations_concat_of_not_ended hEnded, ended_concat, hEnded,
      Bool.false_or]
    cases hEnds : step.ends module with
    | true => rw [CacheLife.step_of_ends hEnds]; rfl
    | false =>
      cases hRenews : step.renews module with
      | true => rw [CacheLife.step_of_renews hEnds hRenews, lifeAfter, hEnded]; rfl
      | false => rw [CacheLife.step_of_neither hEnds hRenews, lifeAfter, hEnded]; rfl

/-! ## What a log says of a module -/

/-- The step that registered a module first since it was last disposed.  The log is read backwards,
    the latest step first. -/
def since? (module : ModuleId) : List RegistryStep → Option Nat
  | [] => none
  | .register other _ _ :: earlier =>
    if other = module then (since? module earlier).or (some earlier.length)
    else since? module earlier
  | .dispose other :: earlier => if other = module then none else since? module earlier
  | _ :: earlier => since? module earlier

/-- A module has been there since some step that was taken. -/
theorem since?_lt {module : ModuleId} {log : List RegistryStep} {k : Nat}
    (hSince : since? module log = some k) : k < log.length := by
  -- On the log, latest step first: the time of a module is that of an earlier step, or now.
  induction log with
  | nil => cases hSince
  | cons step earlier ih =>
    rw [List.length_cons]
    cases step with
    | register other source provider =>
      rw [since?] at hSince
      split at hSince
      · cases hBefore : since? module earlier with
        | none =>
          rw [hBefore] at hSince
          cases hSince
          exact Nat.lt_succ_self _
        | some before =>
          rw [hBefore] at hSince
          cases hSince
          exact Nat.lt_succ_of_lt (ih hBefore)
      · exact Nat.lt_succ_of_lt (ih hSince)
    | dispose other =>
      rw [since?] at hSince
      split at hSince
      · cases hSince
      · exact Nat.lt_succ_of_lt (ih hSince)
    | invalidate _ | invalidateAll | query _ _ _ => exact Nat.lt_succ_of_lt (ih hSince)

/-- Modules are listed in the order in which they were registered first since they were last
    disposed. -/
structure InOrder (modules : List ModuleId) (log : List RegistryStep) : Prop where
  listed : ∀ module, module ∈ modules ↔ ∃ k, since? module log = some k
  ordered : modules.Pairwise fun first second =>
    ∀ i j, since? first log = some i → since? second log = some j → i < j

namespace ModuleRegistry

/-! ## Caches -/

/-- **The life of a cache** is decided by the steps after its registration, and so is whether it is
    the cache of its module. -/
theorem lifeOf?_performAll (before : List RegistryStep) (module : ModuleId)
    (source : AncestorSource) (provider : MemberProvider) (after : List RegistryStep) :
    (performAll (before ++ .register module source provider :: after)).lifeOf?
        (before.countP (·.registers)) = some (lifeAfter module after) ∧
      ∀ other, (performAll (before ++ .register module source provider :: after)).cacheFor other =
        some (before.countP (·.registers)) ↔ other = module ∧ ended module after = false := by
  rw [← length_caches_performAll]
  rw [← List.reverse_reverse after]
  -- On the steps after the registration, the last one first off: each acts on the life as
  -- `CacheLife.step` says.
  induction after.reverse with
  | nil =>
    have hRegistered := (coherent_performAll before).registered module source provider
    rw [← performAll_concat] at hRegistered
    refine ⟨hRegistered.1, fun other => ⟨fun hCurrent => ⟨?_, rfl⟩, ?_⟩⟩
    · exact ((coherent_performAll _).module_eq hRegistered.1 hCurrent).symm
    · rintro ⟨rfl, -⟩
      exact hRegistered.2
  | cons step rest ih =>
    obtain ⟨hLife, hCurrent⟩ := ih
    have hCoherent := coherent_performAll
      (before ++ .register module source provider :: rest.reverse)
    have hStep : performAll (before ++ .register module source provider :: (step :: rest).reverse) =
        (performAll (before ++ .register module source provider :: rest.reverse)).perform step := by
      rw [← performAll_concat]
      simp
    rw [hStep, List.reverse_cons]
    constructor
    · rw [hCoherent.lifeOf?_perform hLife, lifeAfter_concat]
      simp only [hCurrent, lifeAfter, true_and]
    · intro other
      rw [hCoherent.cacheFor_perform_iff hLife, hCurrent, ended_concat, Bool.or_eq_false_iff,
        and_assoc]
      rfl

/-- **The cache of a module** is the one that was registered for it last, if the module was not
    disposed since. -/
theorem cacheFor_performAll_iff (steps : List RegistryStep) (module : ModuleId) (number : Nat) :
    (performAll steps).cacheFor module = some number ↔
      ∃ before source provider after, steps = before ++ .register module source provider :: after ∧
        number = before.countP (·.registers) ∧ ended module after = false := by
  constructor
  · rw [← List.reverse_reverse steps]
    induction steps.reverse with
    | nil =>
      intro hCurrent
      cases hCurrent
    | cons step rest ih =>
      intro hCurrent
      rw [List.reverse_cons, performAll_concat] at hCurrent
      rw [List.reverse_cons]
      have hCoherent := coherent_performAll rest.reverse
      -- The cache was current before the last step, or is the one that this step has registered.
      rcases cacheFor_perform_cases hCurrent with hBefore | ⟨source, provider, rfl, rfl⟩
      · obtain ⟨before, source, provider, after, hSteps, hNumber, hEnded⟩ := ih hBefore
        obtain ⟨life, hLife, rfl⟩ := hCoherent module number hBefore
        refine ⟨before, source, provider, after ++ [step], ?_, hNumber, ?_⟩
        · rw [hSteps]
          simp
        · rw [ended_concat, hEnded, Bool.false_or]
          exact ((hCoherent.cacheFor_perform_iff hLife step _).1 hCurrent).2
      · exact ⟨rest.reverse, source, provider, [], rfl, length_caches_performAll _, rfl⟩
  · rintro ⟨before, source, provider, after, rfl, rfl, hEnded⟩
    exact ((lifeOf?_performAll before module source provider after).2 module).2 ⟨rfl, hEnded⟩

/-! ## Modules -/

/-- A module that is registered goes to the end of the list, or stays where it is. -/
theorem modules_register (registry : ModuleRegistry) (module : ModuleId) (source : AncestorSource)
    (provider : MemberProvider) :
    (registry.perform (.register module source provider)).modules =
      if module ∈ registry.modules then registry.modules else registry.modules ++ [module] := by
  rw [perform, modules, current_register, OrderedMap.keys_insert]
  rfl

theorem modules_dispose (registry : ModuleRegistry) (module : ModuleId) :
    (registry.perform (.dispose module)).modules = registry.modules.erase module := by
  rw [perform, modules, current_dispose, OrderedMap.keys_erase]
  rfl

end ModuleRegistry

namespace InOrder

variable {modules : List ModuleId} {log : List RegistryStep}

/-- A step that says nothing new of any module keeps the list as it is. -/
theorem of_same (hOrder : InOrder modules log) {step : RegistryStep}
    (hSame : ∀ module, since? module (step :: log) = since? module log) :
    InOrder modules (step :: log) where
  listed := by
    intro module
    rw [hSame, hOrder.listed]
  ordered := by
    refine hOrder.ordered.imp fun {first second} hBefore => ?_
    rwa [hSame, hSame]

/-- **A module that is registered** keeps its place, or goes to the end. -/
theorem register (hOrder : InOrder modules log) (module : ModuleId) (source : AncestorSource)
    (provider : MemberProvider) :
    InOrder (if module ∈ modules then modules else modules ++ [module])
      (.register module source provider :: log) := by
  split
  · rename_i hListed
    obtain ⟨k, hSince⟩ := (hOrder.listed module).1 hListed
    refine hOrder.of_same fun other => ?_
    rw [since?]
    split
    · rename_i hOther
      rw [← hOther, hSince, Option.some_or]
    · rfl
  · rename_i hNew
    have hNone : since? module log = none := by
      rw [Option.eq_none_iff_forall_ne_some]
      exact fun k hSince => hNew ((hOrder.listed module).2 ⟨k, hSince⟩)
    -- A module that is new is younger than all that are listed, and goes behind them.
    have hOwn : since? module (.register module source provider :: log) = some log.length := by
      rw [since?, if_pos rfl, hNone, Option.none_or]
    have hOther : ∀ other, other ≠ module →
        since? other (.register module source provider :: log) = since? other log := by
      intro other hApart
      rw [since?, if_neg (Ne.symm hApart)]
    have hListed : ∀ other ∈ modules, other ≠ module := by
      rintro other hMem rfl
      exact hNew hMem
    constructor
    · intro other
      rw [List.mem_append, List.mem_singleton]
      by_cases hSame : other = module
      · rw [hSame, hOwn]
        exact iff_of_true (.inr rfl) ⟨_, rfl⟩
      · rw [hOther other hSame, ← hOrder.listed]
        exact or_iff_left hSame
    · refine List.pairwise_append.2 ⟨?_, List.pairwise_singleton _ _, ?_⟩
      · refine hOrder.ordered.imp_of_mem fun {first second} hFirst hSecond hBefore => ?_
        rwa [hOther first (hListed first hFirst), hOther second (hListed second hSecond)]
      · intro first hFirst last hLast i j hI hJ
        rw [List.mem_singleton.1 hLast, hOwn] at hJ
        rw [hOther first (hListed first hFirst)] at hI
        cases hJ
        exact since?_lt hI

/-- **A module that is disposed of** is taken out, and the others stay in order. -/
theorem dispose (hOrder : InOrder modules log) (hDistinct : modules.Nodup) (module : ModuleId) :
    InOrder (modules.erase module) (.dispose module :: log) := by
  have hOther : ∀ other, other ≠ module →
      since? other (.dispose module :: log) = since? other log := by
    intro other hApart
    rw [since?, if_neg (Ne.symm hApart)]
  constructor
  · intro other
    rw [hDistinct.mem_erase_iff]
    by_cases hSame : other = module
    · rw [hSame, since?, if_pos rfl]
      simp
    · rw [hOther other hSame, ← hOrder.listed]
      exact and_iff_right hSame
  · refine (hOrder.ordered.sublist List.erase_sublist).imp_of_mem ?_
    intro first second hFirst hSecond hBefore
    rwa [hOther first (hDistinct.mem_erase_iff.1 hFirst).1,
      hOther second (hDistinct.mem_erase_iff.1 hSecond).1]

end InOrder

namespace ModuleRegistry

/-- **The modules stand in order** after every log. -/
theorem inOrder_performAll (steps : List RegistryStep) :
    InOrder (performAll steps).modules steps.reverse := by
  rw [← List.reverse_reverse steps, List.reverse_reverse steps.reverse]
  induction steps.reverse with
  | nil => exact ⟨fun module => by simp [performAll, since?, modules, empty], List.Pairwise.nil⟩
  | cons step rest ih =>
    rw [List.reverse_cons, performAll_concat]
    -- Only two kinds of steps change the list.
    cases step with
    | register module source provider =>
      rw [modules_register]
      exact ih.register module source provider
    | dispose module =>
      rw [modules_dispose]
      exact ih.dispose (performAll rest.reverse).current.distinct module
    | invalidate module =>
      rw [modules, perform, current_invalidate]
      exact ih.of_same fun _ => rfl
    | invalidateAll =>
      rw [modules, perform, current_invalidateAll]
      exact ih.of_same fun _ => rfl
    | query number className root =>
      rw [modules, perform, current_query]
      exact ih.of_same fun _ => rfl

/-! ## The registry and its log -/

/-- **A registry follows its log.** -/
structure FollowsLog (registry : ModuleRegistry) (steps : List RegistryStep) : Prop where
  /-- No module is listed twice, and the modules stand in the order in which they were registered
      first since they were last disposed. -/
  distinct : registry.modules.Nodup
  inOrder : InOrder registry.modules steps.reverse
  /-- A module has the cache that was registered for it last and not disposed since. -/
  current : ∀ module number, registry.cacheFor module = some number ↔
    ∃ before source provider after, steps = before ++ .register module source provider :: after ∧
      number = before.countP (·.registers) ∧ ended module after = false
  /-- A cache that was ever registered belongs to its module, is disposed if it was replaced or its
      module was disposed, and has counted its invalidations up to then. -/
  lives : ∀ before module source provider after,
    steps = before ++ .register module source provider :: after →
      registry.lifeOf? (before.countP (·.registers)) = some (lifeAfter module after)
  /-- To invalidate a module is to invalidate its cache, once, and to touch no other. -/
  invalidated : ∀ module number, (registry.invalidate module).caches[number]? =
    if registry.cacheFor module = some number then
      registry.caches[number]?.map HierarchyCache.invalidate
    else registry.caches[number]?
  /-- To invalidate all modules is to invalidate the cache of each, once, and to touch no other. -/
  allInvalidated : ∀ module number, registry.cacheFor module = some number →
    registry.invalidateAll.caches[number]? = registry.caches[number]?.map HierarchyCache.invalidate
  othersUntouched : ∀ number, (∀ module, registry.cacheFor module ≠ some number) →
    registry.invalidateAll.caches[number]? = registry.caches[number]?

/-- **Every registry follows its log**, whatever was registered, disposed of, invalidated and asked
    for. -/
theorem followsLog_performAll (steps : List RegistryStep) :
    (performAll steps).FollowsLog steps where
  distinct := (performAll steps).current.distinct
  inOrder := inOrder_performAll steps
  current := cacheFor_performAll_iff steps
  lives := by
    rintro before module source provider after rfl
    exact (lifeOf?_performAll before module source provider after).1
  invalidated := getElem?_caches_invalidate (performAll steps)
  allInvalidated := by
    intro module number hCurrent
    rw [(coherent_performAll steps).getElem?_caches_invalidateAll,
      if_pos (mem_values_iff.2 ⟨module, hCurrent⟩)]
  othersUntouched := by
    intro number hNone
    rw [(coherent_performAll steps).getElem?_caches_invalidateAll, if_neg]
    intro hMem
    obtain ⟨module, hCurrent⟩ := mem_values_iff.1 hMem
    exact hNone module hCurrent

/-- A module that is registered again keeps its place; its first cache was invalidated once and then
    replaced, and is not reached by what comes after. -/
example :
    let source : AncestorSource := .materialized []
    let provider : MemberProvider := { members := fun _ => [] }
    let registry := performAll [.register ⟨"a"⟩ source provider, .register ⟨"b"⟩ source provider,
      .invalidate ⟨"a"⟩, .register ⟨"a"⟩ source provider, .invalidateAll]
    registry.modules = [⟨"a"⟩, ⟨"b"⟩] ∧ registry.cacheFor ⟨"a"⟩ = some 2 ∧
      registry.lifeOf? 0 = some ⟨⟨"a"⟩, 2, true⟩ ∧ registry.lifeOf? 2 = some ⟨⟨"a"⟩, 1, false⟩ := by
  decide

end ModuleRegistry

end Lineage
