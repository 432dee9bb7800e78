/-
  Numbers as a fixed number of bytes, the most significant first.

  `toBytes w` and `ofBytes` are inverse to each other between the numbers below `limit w` and the
  lists of `w` bytes; the two laws at the end say so.
-/

namespace Lineage.Wire.BigEndian

/-- The number of values that `width` bytes can take. -/
def limit : (width : Nat) → Nat
  | 0 => 1
  | width + 1 => 256 * limit width

/-- The `width` low bytes of `n`. -/
def toBytes : (width : Nat) → (n : Nat) → List UInt8
  | 0, _ => []
  | width + 1, n => toBytes width (n / 256) ++ [UInt8.ofNat n]

/-- The number with these bytes. -/
def ofBytes (bytes : List UInt8) : Nat := bytes.foldl (fun n byte => n * 256 + byte.toNat) 0

@[simp] theorem length_toBytes (width n : Nat) : (toBytes width n).length = width := by
  induction width generalizing n with
  | zero => rfl
  | succ w ih => simp [toBytes, ih]

theorem ofBytes_concat (bytes : List UInt8) (last : UInt8) :
    ofBytes (bytes ++ [last]) = ofBytes bytes * 256 + last.toNat := by
  simp [ofBytes, List.foldl_append]

/-- A number that is read fits into the width it is read from. -/
theorem ofBytes_lt_limit (bytes : List UInt8) : ofBytes bytes < limit bytes.length := by
  rw [← List.reverse_reverse bytes]
  induction bytes.reverse with
  | nil => decide
  | cons last rest ih =>
    have hLast : last.toNat < 256 := last.toNat_lt
    rw [List.reverse_cons, ofBytes_concat, List.length_append, List.length_singleton, limit]
    omega

/-- Reading gives back what was written, cut to its width. -/
theorem ofBytes_toBytes (width n : Nat) : ofBytes (toBytes width n) = n % limit width := by
  induction width generalizing n with
  | zero => simp [toBytes, ofBytes, limit, Nat.mod_one]
  | succ w ih =>
    have hByte : (UInt8.ofNat n).toNat = n % 256 := UInt8.toNat_ofNat'
    rw [toBytes, ofBytes_concat, ih, hByte, limit, Nat.mod_mul]
    omega

/-- Only the bytes of a number read as that number. -/
theorem toBytes_ofBytes (bytes : List UInt8) : toBytes bytes.length (ofBytes bytes) = bytes := by
  rw [← List.reverse_reverse bytes]
  induction bytes.reverse with
  | nil => rfl
  | cons last rest ih =>
    have hLast : last.toNat < 256 := last.toNat_lt
    have hHigh : (ofBytes rest.reverse * 256 + last.toNat) / 256 = ofBytes rest.reverse := by omega
    have hLow : UInt8.ofNat (ofBytes rest.reverse * 256 + last.toNat) = last := by
      rw [← UInt8.toNat_inj]
      show (ofBytes rest.reverse * 256 + last.toNat) % 256 = last.toNat
      omega
    rw [List.reverse_cons, List.length_append, List.length_singleton, ofBytes_concat, toBytes,
      hHigh, hLow, ih]

end Lineage.Wire.BigEndian
