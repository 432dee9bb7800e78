/-
  Texts stand in one order, by their characters and by their bytes.

  UTF-8 was made so: the lead byte of a longer character is the higher one, and among characters of
  one length the bytes are the digits of the code point in base 64, most significant first.  So the
  bytes of the lower of two characters are below those of the higher one, whatever comes after
  either (`compare_utf8EncodeChar_of_lt`), and comparing two texts byte by byte comes to the same
  as comparing them character by character (`compare_encode_ofList`).
-/
import Lineage.Text.Utf8
import Mathlib.Data.Char
import Mathlib.Order.Compare
import Mathlib.Tactic.SplitIfs

namespace Lineage.Utf8

theorem encode_ofList (characters : List Char) :
    encode (String.ofList characters) = characters.flatMap String.utf8EncodeChar := by
  rw [encode, String.toUTF8_eq_toByteArray, String.toByteArray_ofList, List.utf8Encode,
    List.toList_data_toByteArray]

/-! ## One character -/

theorem toNat_ofNat_byte {n : Nat} (hByte : n < 256) : (UInt8.ofNat n).toNat = n := by
  rw [UInt8.toNat_ofNat', Nat.mod_eq_of_lt hByte]

theorem compare_ofNat_eq_lt_iff {m n : Nat} (hm : m < 256) (hn : n < 256) :
    compare (UInt8.ofNat m) (UInt8.ofNat n) = .lt ↔ m < n := by
  rw [Std.compare_eq_lt, UInt8.lt_iff_toNat_lt, toNat_ofNat_byte hm, toNat_ofNat_byte hn]

theorem compare_ofNat_eq_eq_iff {m n : Nat} (hm : m < 256) (hn : n < 256) :
    compare (UInt8.ofNat m) (UInt8.ofNat n) = .eq ↔ m = n := by
  rw [Std.LawfulEqOrd.compare_eq_iff_eq, ← UInt8.toNat_inj, toNat_ofNat_byte hm,
    toNat_ofNat_byte hn]

/-- **The lower character has the lower bytes**, whatever follows. -/
theorem compare_utf8EncodeChar_of_lt {c d : Char} (hLower : c < d) (after behind : List UInt8) :
    compare (String.utf8EncodeChar c ++ after) (String.utf8EncodeChar d ++ behind) = .lt := by
  have hCode : c.val.toNat < d.val.toNat := hLower
  have hLast : d.val.toNat < 0x110000 := by
    rcases d.valid with hLow | hHigh <;> omega
  -- The digits in base 64, each from the one before.
  have hThird (n : Nat) : n / 4096 = n / 64 / 64 := by rw [Nat.div_div_eq_div_mul]
  have hFourth (n : Nat) : n / 262144 = n / 64 / 64 / 64 := by
    rw [Nat.div_div_eq_div_mul, Nat.div_div_eq_div_mul]
  unfold String.utf8EncodeChar
  dsimp only
  -- Where the lengths differ the lead bytes decide, and where they are the same the first digits
  -- that differ.
  split_ifs <;>
    simp (disch := omega) only [List.cons_append, List.nil_append, List.compare_cons_cons,
      Ordering.then_eq_lt, compare_ofNat_eq_lt_iff, compare_ofNat_eq_eq_iff, hThird, hFourth] <;>
    omega

/-! ## Texts -/

/-- What two lists begin with in common does not count. -/
theorem compare_append_left (shared : List UInt8) (as bs : List UInt8) :
    compare (shared ++ as) (shared ++ bs) = compare as bs := by
  induction shared with
  | nil => rfl
  | cons byte rest ih =>
    rw [List.cons_append, List.cons_append, List.compare_cons_cons, ih,
      Std.compare_self, Ordering.eq_then]

theorem compare_nil_utf8EncodeChar (c : Char) (after : List UInt8) :
    compare [] (String.utf8EncodeChar c ++ after) = .lt := by
  obtain ⟨byte, rest, hBytes⟩ := List.exists_cons_of_ne_nil (String.utf8EncodeChar_ne_nil (c := c))
  rw [hBytes, List.cons_append, List.compare_nil_cons]

/-- **The order of the bytes is the order of the characters.** -/
theorem compare_encode_ofList (as bs : List Char) :
    compare (encode (String.ofList as)) (encode (String.ofList bs)) = compare as bs := by
  rw [encode_ofList, encode_ofList]
  -- On both texts: the first characters that differ decide, and they have bytes in the same order.
  induction as generalizing bs with
  | nil =>
    cases bs with
    | nil => rfl
    | cons d ds =>
      rw [List.flatMap_cons, List.compare_nil_cons]
      exact compare_nil_utf8EncodeChar d _
  | cons c cs ih =>
    cases bs with
    | nil =>
      rw [List.flatMap_cons, List.compare_cons_nil, Std.OrientedOrd.eq_swap]
      exact congrArg Ordering.swap (compare_nil_utf8EncodeChar c _)
    | cons d ds =>
      rw [List.flatMap_cons, List.flatMap_cons, List.compare_cons_cons]
      rcases lt_trichotomy c d with hLower | rfl | hHigher
      · rw [compare_utf8EncodeChar_of_lt hLower, compare_lt_iff_lt.2 hLower, Ordering.lt_then]
      · rw [compare_append_left, ih, Std.compare_self, Ordering.eq_then]
      · rw [Std.OrientedOrd.eq_swap, compare_utf8EncodeChar_of_lt hHigher,
          compare_gt_iff_gt.2 hHigher, Ordering.gt_then, Ordering.swap_lt]

/-- A text that is lower compares as lower. -/
theorem compare_of_lt {as bs : List Char} (hLower : as < bs) : compare as bs = .lt := by
  induction as generalizing bs with
  | nil =>
    cases bs with
    | nil => exact absurd hLower (List.lt_irrefl [])
    | cons d ds => exact List.compare_nil_cons
  | cons c cs ih =>
    cases bs with
    | nil => exact absurd hLower (List.not_lt_nil _)
    | cons d ds =>
      rcases List.cons_lt_cons_iff.1 hLower with hFirst | ⟨rfl, hRest⟩
      · rw [List.compare_cons_cons, compare_lt_iff_lt.2 hFirst, Ordering.lt_then]
      · rw [List.compare_cons_cons, Std.compare_self, Ordering.eq_then, ih hRest]

/-- A text that is lower has lower bytes. -/
theorem compare_encode_of_lt {a b : String} (hLower : a < b) :
    compare (encode a) (encode b) = .lt := by
  have hBytes := compare_encode_ofList a.toList b.toList
  rw [String.ofList_toList, String.ofList_toList] at hBytes
  rw [hBytes, compare_of_lt (show a.toList < b.toList from hLower)]

end Lineage.Utf8
