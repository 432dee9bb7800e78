/-
  Sets of characters, given as ranges of code points.

  A property of Unicode that has no short rule is a table of inclusive ranges in ascending order.
-/

namespace Lineage.Text

/-- Does `n` lie in one of the ascending ranges? -/
def inRanges (n : Nat) : List (Nat × Nat) → Bool
  | [] => false
  | (first, last) :: rest => if n < first then false else n ≤ last || inRanges n rest

end Lineage.Text
