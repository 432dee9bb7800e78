/-
  White space, and what is between it.

  Texts that people and consoles write are read line by line and word by word.  White space is
  the Unicode property White_Space; the control characters 1C to 1F and the zero-width space do
  not have it.
-/

namespace Lineage.Text

/-- White space, by the Unicode property White_Space. -/
def isBlank (c : Char) : Bool :=
  let n := c.toNat
  (0x9 ≤ n && n ≤ 0xD) || n = 0x20 || n = 0x85 || n = 0xA0 || n = 0x1680 ||
    (0x2000 ≤ n && n ≤ 0x200A) || n = 0x2028 || n = 0x2029 || n = 0x202F || n = 0x205F ||
    n = 0x3000

/-- The pieces between separators; two separators in a row have an empty piece between them, and
    there is always one piece more than there are separators. -/
def split (isSeparator : Char → Bool) : List Char → List (List Char)
  | [] => [[]]
  | c :: rest =>
    if isSeparator c then [] :: split isSeparator rest
    else
      match split isSeparator rest with
      | [] => [[c]]
      | piece :: pieces => (c :: piece) :: pieces

/-- The maximal runs of characters that are not white space. -/
def words (text : List Char) : List (List Char) := (split isBlank text).filter (· ≠ [])

/-- The lines of a text.  A carriage return before the end of a line is white space and goes when
    the line is trimmed; after a final line end comes one more, empty line. -/
def lines (text : List Char) : List (List Char) := split (· = '\n') text

/-- A text without the white space at its ends. -/
def trim (text : List Char) : List Char :=
  ((text.dropWhile isBlank).reverse.dropWhile isBlank).reverse

/-- A text without separators, the empty one too, is one piece and not none. -/
theorem split_ne_nil (isSeparator : Char → Bool) (text : List Char) :
    split isSeparator text ≠ [] := by
  cases text with
  | nil => simp [split]
  | cons c rest =>
    simp only [split]
    split
    · simp
    · split <;> simp

example : words " \t a\u00a0bc  ".toList = ["a".toList, "bc".toList] := by decide
example : trim "\u3000 a b \r".toList = "a b".toList := by decide
example : lines "a\n\nb\n".toList = ["a".toList, [], "b".toList, []] := by decide

end Lineage.Text
