/-
  Keeping each name at its last place.

  `keepLast` is `List.dedup`, and what is true of each list by itself is taken from there.  It may
  be applied early or late: to the parts of a list before they are put together, to the whole
  afterwards, or to both.  What makes this so is `keepLast_append`: of the first part only what does
  not occur in the second part stays, and that depends on the second part's elements alone.
-/
import Lineage.Ancestry.Linearization
import Mathlib.Data.List.Dedup

namespace Lineage

variable {α : Type} [DecidableEq α]

/-- **Keeping the last places** is what the library calls removing duplicates. -/
theorem keepLast_eq_dedup : @keepLast α _ = List.dedup := by
  funext l
  induction l with
  | nil => rfl
  | cons b rest ih =>
    rw [keepLast, ih]
    by_cases hb : b ∈ rest
    · rw [if_pos hb, List.dedup_cons_of_mem hb]
    · rw [if_neg hb, List.dedup_cons_of_notMem hb]

/-- Of a first part only what does not come again stays. -/
theorem keepLast_append (x y : List α) :
    keepLast (x ++ y) = (keepLast x).filter (· ∉ y) ++ keepLast y := by
  induction x with
  | nil => rfl
  | cons a rest ih =>
    rw [List.cons_append, keepLast, keepLast]
    -- The element may come again in the first part, in the second only, or nowhere.
    by_cases hRest : a ∈ rest
    · rw [if_pos hRest, if_pos (List.mem_append_left y hRest), ih]
    · by_cases hy : a ∈ y
      · rw [if_neg hRest, if_pos (List.mem_append_right rest hy), ih,
          List.filter_cons_of_neg (by simpa using hy)]
      · have hBoth : a ∉ rest ++ y := by
          rw [List.mem_append]
          rintro (h | h)
          · exact hRest h
          · exact hy h
        rw [if_neg hRest, if_neg hBoth, ih, List.filter_cons_of_pos (by simpa using hy),
          List.cons_append]

/-- What comes in front leaves the collapsed rest whole. -/
theorem keepLast_suffix_keepLast_append (x y : List α) : keepLast y <:+ keepLast (x ++ y) := by
  rw [keepLast_append]
  exact List.suffix_append _ _

/-- **Collapsing is a congruence**: lists that collapse to the same list may stand for each other
    in front of and behind others that do. -/
theorem keepLast_append_congr {x x' y y' : List α} (hx : keepLast x = keepLast x')
    (hy : keepLast y = keepLast y') : keepLast (x ++ y) = keepLast (x' ++ y') := by
  have hMem : ∀ a, a ∈ y ↔ a ∈ y' := by
    intro a
    rw [keepLast_eq_dedup] at hy
    rw [← List.mem_dedup, hy, List.mem_dedup]
  rw [keepLast_append, keepLast_append, hx, hy]
  simp only [hMem]

theorem keepLast_cons_congr (a : α) {y y' : List α} (hy : keepLast y = keepLast y') :
    keepLast (a :: y) = keepLast (a :: y') :=
  keepLast_append_congr (x := [a]) rfl hy

example : keepLast ["M", "C", "A", "M", "B", "M", "Object"] = ["C", "A", "B", "M", "Object"] := by
  decide

end Lineage
