/-
  What an indicator shows.

  In parts of `1 / n` each step adds that much to the fraction that is shown, in the arithmetic of
  64-bit floating-point numbers; a sum that is not below one counts as one, and so does no number at
  all (`Follows`).  So an indicator never goes past one, whatever it was set to before
  (`Advances.not_one_lt`), but because of rounding it may take a step more than `n` to get there.

  An indicator keeps what it has shown, and this list is what the steps of a run are read off
  (`Advances`): how many there were, and that each one came from the one before it.
-/
import Lineage.Export.Progress
import Mathlib

namespace Lineage

/-! ## Comparing floating-point numbers -/

open Float.Model (UnpackedFloat) in
/-- The other way round the verdict is the opposite one. -/
theorem swap_compare_float (x y : UnpackedFloat) :
    (x.compare y).map Ordering.swap = y.compare x := by
  have hFinite : ∀ (a b : Int) (m n : Nat),
      ((compare a b).then (compare m n)).swap = (compare b a).then (compare n m) := by
    intro a b m n
    rw [Ordering.swap_then, ← Std.OrientedCmp.eq_swap, ← Std.OrientedCmp.eq_swap]
  -- Signs and kinds settle all cases but that of two finite numbers of one sign; these go by
  -- exponent and significand.
  cases x with
  | notANumber => cases y <;> rfl
  | infinity s =>
    cases y with
    | infinity s' => cases s <;> cases s' <;> rfl
    | _ => cases s <;> rfl
  | zero s =>
    cases y with
    | infinity s' | finite s' _ _ => cases s' <;> rfl
    | _ => rfl
  | finite s a m =>
    cases y with
    | infinity s' => cases s <;> cases s' <;> rfl
    | finite s' b n =>
      cases s with
      | positive =>
        cases s' with
        | positive => exact congrArg some (hFinite ..)
        | negative => rfl
      | negative =>
        cases s' with
        | positive => rfl
        | negative => exact congrArg (some ·.swap) (hFinite ..)
    | _ => cases s <;> rfl

/-- Of two numbers at most one is less than the other. -/
theorem not_lt_of_lt_float {x y : Float} (hLess : x < y) : ¬ y < x := by
  intro hMore
  have hLess : x.toModel.unpack.compare y.toModel.unpack = some .lt :=
    eq_of_beq (of_decide_eq_true hLess)
  have hMore : y.toModel.unpack.compare x.toModel.unpack = some .lt :=
    eq_of_beq (of_decide_eq_true hMore)
  rw [← swap_compare_float, hLess] at hMore
  cases hMore

/-! ## One step -/

/-- The second fraction is one step on from the first: more by one part of `fractions` (of one, if
    `fractions` is 0) as long as that is below one, and else one. -/
structure Follows (fractions : UInt32) (before after : Progress) : Prop where
  below : before.toFloat + 1.0 / (max fractions 1).toFloat < 1.0 →
    after.toFloat = before.toFloat + 1.0 / (max fractions 1).toFloat
  full : ¬ before.toFloat + 1.0 / (max fractions 1).toFloat < 1.0 → after.toFloat = 1.0

namespace Progress

/-- A number is got back from its bits, also one that is no number. -/
theorem toFloat_ofFloat (fraction : Float) : (ofFloat fraction).toFloat = fraction :=
  Float.ofBits_toBits fraction

/-- **What a step of progress does.** -/
theorem follows_advance (progress : Progress) (fractions : UInt32) :
    Follows fractions progress (progress.advance fractions) where
  below hBelow := by rw [advance, step, if_pos hBelow, toFloat_ofFloat]
  full hFull := by rw [advance, step, if_neg hFull, toFloat_ofFloat]

end Progress

/-- A step does not go past one. -/
theorem Follows.not_one_lt {fractions : UInt32} {before after : Progress}
    (hFollows : Follows fractions before after) : ¬ 1.0 < after.toFloat := by
  by_cases hBelow : before.toFloat + 1.0 / (max fractions 1).toFloat < 1.0
  · rw [hFollows.below hBelow]
    exact not_lt_of_lt_float hBelow
  · rw [hFollows.full hBelow]
    decide +kernel

/-! ## Several steps -/

/-- The indicator was advanced `steps` times: it has shown so many fractions more, each of which is
    one step on from the one before it, and it shows the last of them. -/
def Advances (fractions : UInt32) (before : Indicator) (steps : Nat) (after : Indicator) : Prop :=
  ∃ shown : List Progress, shown.length = steps ∧
    (before.fraction :: shown).IsChain (Follows fractions) ∧
    after.shown = before.shown ++ shown ∧
    (before.fraction :: shown).getLast? = some after.fraction

variable {fractions : UInt32} {before after : Indicator} {steps : Nat}

theorem Advances.zero (fractions : UInt32) (indicator : Indicator) :
    Advances fractions indicator 0 indicator :=
  ⟨[], rfl, .singleton _, (List.append_nil _).symm, rfl⟩

/-- **One step more.** -/
theorem Advances.advance (hAdvances : Advances fractions before steps after) :
    Advances fractions before (steps + 1) (after.advance fractions) := by
  obtain ⟨shown, hLength, hChain, hShown, hLast⟩ := hAdvances
  refine ⟨shown ++ [after.fraction.advance fractions], ?_, ?_, ?_, ?_⟩
  · rw [List.length_append, hLength, List.length_singleton]
  · rw [← List.cons_append]
    refine List.isChain_append.2 ⟨hChain, .singleton _, fun last hMem next hNext => ?_⟩
    rw [hLast, Option.mem_some_iff] at hMem
    rw [List.head?_cons, Option.mem_some_iff] at hNext
    rw [← hMem, ← hNext]
    exact after.fraction.follows_advance fractions
  · rw [Indicator.advance, Indicator.set, hShown, List.append_assoc]
  · rw [← List.cons_append, List.getLast?_concat]
    rfl

/-- Each fraction that is shown follows another one. -/
theorem exists_follows {start : Progress} {shown : List Progress}
    (hChain : (start :: shown).IsChain (Follows fractions)) :
    ∀ progress ∈ shown, ∃ earlier, Follows fractions earlier progress := by
  induction shown generalizing start with
  | nil => exact nofun
  | cons first rest ih =>
    obtain ⟨hFirst, hRest⟩ := List.isChain_cons_cons.1 hChain
    intro progress hMem
    rcases List.mem_cons.1 hMem with rfl | hMem
    · exact ⟨start, hFirst⟩
    · exact ih hRest progress hMem

/-- **No step goes past one**, wherever the indicator stood before the first of them. -/
theorem Advances.not_one_lt (hAdvances : Advances fractions before steps after) :
    ∀ progress ∈ after.shown, progress ∈ before.shown ∨ ¬ 1.0 < progress.toFloat := by
  obtain ⟨shown, -, hChain, hShown, -⟩ := hAdvances
  intro progress hMem
  rw [hShown] at hMem
  rcases List.mem_append.1 hMem with hBefore | hMem
  · exact .inl hBefore
  · obtain ⟨earlier, hFollows⟩ := exists_follows hChain progress hMem
    exact .inr hFollows.not_one_lt

/-- Five steps in five parts end at one. -/
example : (Nat.repeat (·.advance 5) 5 ({} : Indicator)).shown =
    [0.2, 0.4, 0.6000000000000001, 0.8, 1.0].map .ofFloat := by
  decide +kernel

/-- Ten steps in ten parts do not. -/
example : (Nat.repeat (·.advance 10) 10 ({} : Indicator)).fraction =
    .ofFloat 0.9999999999999999 := by
  decide +kernel

end Lineage
