/-
  Generations only go up, and disposal is for good.

  Every step of a run but a query starts a new generation, in which nothing is kept of the one
  before.  One of these steps also disposes of the cache.  No step takes that back: an invalidation
  and a new source reach a disposed cache as they reach any other, but a cache that is disposed and
  keeps nothing is OVER, and whatever is done with it leaves it over (`Over.perform`).

  A cache that is over answers with nothing and has nobody do anything.  So each turn of a run that
  comes after a disposal is quiet (`Over.quiet_of_mem_turns`), by induction on the steps.
-/
import Lineage.Proofs.Hierarchy.Work

namespace Lineage

namespace CacheStep

/-- Does the step start a new generation? -/
def renews : CacheStep → Bool
  | query _ _ => false
  | invalidate | setSource _ | dispose => true

theorem key?_isSome (step : CacheStep) : step.key?.isSome = !step.renews := by
  cases step <;> rfl

end CacheStep

namespace HierarchyCache

variable {cache : HierarchyCache}

/-! ## Generations -/

/-- **Generations count the steps that start one.** -/
theorem generation_performAll (cache : HierarchyCache) (steps : List CacheStep) :
    (cache.performAll steps).generation = cache.generation + steps.countP CacheStep.renews := by
  induction steps generalizing cache with
  | nil => rfl
  | cons step rest ih =>
    have hRest := ih (cache.perform step)
    rw [generation_perform, CacheStep.key?_isSome] at hRest
    rw [performAll, List.foldl_cons, ← performAll, hRest, List.countP_cons]
    cases step.renews with
    | true => exact Nat.add_right_comm _ _ _
    | false => rfl

/-- No answer is kept, and no table. -/
structure KeepsNothing (cache : HierarchyCache) : Prop where
  entries : ∀ key, cache.entries.get? key = none
  states : ∀ className root, cache.entryState className root = .unresolved
  cachedEntries : cache.cachedEntries = 0
  table : cache.table.get? () = none

/-- **A generation starts with nothing kept**, whatever was there before. -/
theorem keepsNothing_reset (cache : HierarchyCache) : cache.reset.KeepsNothing where
  entries := cache.entries.get?_clear
  states _ _ := rfl
  cachedEntries := rfl
  table := cache.table.get?_clear ()

/-- A cache that is renewed keeps nothing. -/
theorem keepsNothing_perform (cache : HierarchyCache) {step : CacheStep}
    (hRenews : step.renews = true) : (cache.perform step).KeepsNothing := by
  -- The three steps that renew a cache all reset it, from different caches.
  cases step with
  | query className root => cases hRenews
  | invalidate => exact cache.keepsNothing_reset
  | setSource source => exact keepsNothing_reset { cache with source }
  | dispose => exact keepsNothing_reset { cache with disposed := true }

/-! ## After a disposal -/

/-- A query leaves open whether the cache is disposed, and so do the other steps but one. -/
theorem disposed_perform (cache : HierarchyCache) (step : CacheStep) :
    (cache.perform step).disposed = true ↔ cache.disposed = true ∨ step = .dispose := by
  cases step with
  | query className root =>
    have hLife := congrArg CacheLife.disposed (cache.life_membersOf className root)
    rw [show (cache.perform (.query className root)).disposed = cache.disposed from hLife]
    simp
  | invalidate | setSource _ => simp [perform, invalidate, setSource, reset]
  | dispose => simp [perform, dispose, reset]

/-- **A cache is disposed if and only if it has been disposed of.** -/
theorem disposed_performAll (cache : HierarchyCache) (steps : List CacheStep) :
    (cache.performAll steps).disposed = true ↔ cache.disposed = true ∨ .dispose ∈ steps := by
  -- On the steps, for any cache; only the disposal itself sets the flag, and nothing clears it.
  induction steps generalizing cache with
  | nil => simp [performAll]
  | cons step rest ih =>
    rw [performAll, List.foldl_cons, ← performAll, ih, disposed_perform, List.mem_cons, or_assoc,
      eq_comm (a := step)]

/-- Disposed, and with nothing kept. -/
structure Over (cache : HierarchyCache) : Prop where
  disposed : cache.disposed = true
  keeps : cache.KeepsNothing

namespace Over

theorem dispose (cache : HierarchyCache) : cache.dispose.Over :=
  ⟨rfl, keepsNothing_reset { cache with disposed := true }⟩

/-- It answers with nothing, and the query changes nothing. -/
theorem membersOf (hOver : cache.Over) (className : String) (root : RootScope) :
    cache.membersOf className root = (some [], cache) :=
  membersOf_of_disposed hOver.disposed

/-- **What is over stays over**, whatever the step. -/
theorem perform (hOver : cache.Over) (step : CacheStep) : (cache.perform step).Over := by
  refine ⟨(cache.disposed_perform step).2 (.inl hOver.disposed), ?_⟩
  cases hRenews : step.renews with
  | true => exact cache.keepsNothing_perform hRenews
  | false =>
    cases step with
    | query className root =>
      rw [HierarchyCache.perform, hOver.membersOf]
      exact hOver.keeps
    | invalidate | setSource _ | dispose => cases hRenews

theorem performAll (hOver : cache.Over) (steps : List CacheStep) :
    (cache.performAll steps).Over := by
  induction steps generalizing cache with
  | nil => exact hOver
  | cons step rest ih => exact ih (hOver.perform step)

end Over

end HierarchyCache

/-- **A quiet turn**: the cache is over before it and after it, a query in its place has no members,
    nothing is executed, and nobody is asked for anything. -/
structure Turn.Quiet (turn : Turn) : Prop where
  before : turn.before.Over
  after : turn.after.Over
  answer : ∀ className root, turn.before.membersOf className root = (some [], turn.before)
  /-- The source is used no more, also one that is handed to the cache in this turn. -/
  source : turn.after.source = turn.source
  provider : turn.after.provider = turn.before.provider
  idle : turn.Idle

namespace HierarchyCache

variable {cache : HierarchyCache}

/-- Whatever is asked of a cache that is over runs nothing and changes nothing. -/
theorem Over.quiet (hOver : cache.Over) (step : CacheStep) : Turn.Quiet ⟨cache, step⟩ := by
  have hAfter : Turn.after ⟨cache, step⟩ = cache.perform step := rfl
  cases step with
  | query className root =>
    have hSame : Turn.after ⟨cache, .query className root⟩ = cache := by
      rw [hAfter, HierarchyCache.perform, hOver.membersOf]
    exact
      { before := hOver
        after := by rw [hSame]; exact hOver
        answer := hOver.membersOf
        source := by rw [hSame]; rfl
        provider := by rw [hSame]
        idle := (Turn.idle_of_logs (by rw [hSame]) (by rw [hSame]) (by rw [hSame]; rfl)
          (by rw [hSame])).2 }
  | invalidate | setSource _ | dispose =>
    exact
      { before := hOver
        after := hOver.perform _
        answer := hOver.membersOf
        source := rfl
        provider := rfl
        idle := (Turn.idle_of_logs rfl rfl rfl rfl).2 }

/-- **All turns from then on are quiet.** -/
theorem Over.quiet_of_mem_turns (hOver : cache.Over) {steps : List CacheStep} {turn : Turn}
    (hTurn : turn ∈ cache.turns steps) : turn.Quiet := by
  induction steps generalizing cache with
  | nil => cases hTurn
  | cons step rest ih =>
    rcases List.mem_cons.1 hTurn with rfl | hRest
    · exact hOver.quiet step
    · exact ih (hOver.perform step) hRest

/-- A run that has disposed of a cache has left it over. -/
theorem over_performAll (cache : HierarchyCache) {steps : List CacheStep}
    (hDispose : .dispose ∈ steps) : (cache.performAll steps).Over := by
  obtain ⟨earlier, later, rfl⟩ := List.append_of_mem hDispose
  rw [performAll, List.foldl_append]
  exact (Over.dispose (cache.performAll earlier)).performAll later

/-- **Disposal is for good, and generations count what ends them.**  After any run the generation is
    the number of steps that started one, each of which leaves neither an answer nor a table.  The
    cache is disposed if and only if some step has disposed of it; and from then on, whatever
    follows, it keeps nothing, has no members, executes nothing and looks nothing up. -/
theorem performAll_over (module : ModuleId) (source : AncestorSource) (provider : MemberProvider)
    (steps : List CacheStep) :
    let cache := (fresh module source provider).performAll steps
    cache.generation = steps.countP CacheStep.renews ∧
    (∀ step, step.renews = true → (cache.perform step).KeepsNothing) ∧
    (cache.disposed = true ↔ .dispose ∈ steps) ∧
    (.dispose ∈ steps → cache.Over ∧
      ∀ later, (cache.performAll later).Over ∧ ∀ turn ∈ cache.turns later, turn.Quiet) := by
  intro cache
  have hGeneration := (fresh module source provider).generation_performAll steps
  have hDisposed := (fresh module source provider).disposed_performAll steps
  refine ⟨?_, fun step => cache.keepsNothing_perform, ?_, fun hDispose => ?_⟩
  · rw [hGeneration]
    exact Nat.zero_add _
  · rw [hDisposed, or_iff_right]
    exact Bool.false_ne_true
  · have hOver := (fresh module source provider).over_performAll hDispose
    exact ⟨hOver, fun later => ⟨hOver.performAll later, fun turn => hOver.quiet_of_mem_turns⟩⟩

/-- A new source and an invalidation do not revive a cache. -/
example :
    let run : AncestorSource := .materialized [⟨"A", ["A"]⟩]
    let provider : MemberProvider :=
      { members := fun name => [⟨.ofProject name, "run", .isPublic, none⟩] }
    let turns := (fresh ⟨"app"⟩ run provider).turns
      [.query "A" ⟨7⟩, .dispose, .setSource run, .query "A" ⟨7⟩, .invalidate, .query "A" ⟨7⟩]
    turns.map (fun turn => (turn.after.generation, turn.after.cachedEntries, turn.lookups)) =
      [(0, 1, ["A"]), (1, 0, []), (2, 0, []), (2, 0, []), (3, 0, []), (3, 0, [])] := by
  decide

end HierarchyCache

end Lineage
