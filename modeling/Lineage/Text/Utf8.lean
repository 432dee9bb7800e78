/-
  Text as UTF-8 bytes.

  `encode` is the byte sequence of a text; `decode?` is its inverse on well-formed sequences.
  `faultOf` tells where a malformed sequence goes wrong: it runs over the bytes once, keeping the
  character it is in the middle of (`Pending`), and stops at the first byte that cannot continue
  that character.  The range allowed for the next byte is part of the state, because after the
  lead bytes E0, ED, F0 and F4 the second byte is restricted (no overlong form, no surrogate,
  nothing above U+10FFFF).
-/

namespace Lineage.Utf8

/-- The bytes of a text. -/
def encode (text : String) : List UInt8 := text.toUTF8.data.toList

/-- The text with these bytes, if they are well-formed. -/
def decode? (bytes : List UInt8) : Option String := String.fromUTF8? ⟨bytes.toArray⟩

/-- The number of bytes a text takes. -/
def size (text : String) : Nat := text.utf8ByteSize

/-- Why a byte sequence is not a text, with the index of the first byte of the character that
    fails. -/
inductive Fault where
  /-- The `length` bytes from `index` on can begin no character together with what follows. -/
  | invalid (length index : Nat)
  /-- The sequence ends inside the character that starts at `index`. -/
  | incomplete (index : Nat)
  deriving DecidableEq, Repr

/-- A fault as it is told. -/
def Fault.message : Fault → String
  | .invalid length index => s!"invalid utf-8 sequence of {length} bytes from index {index}"
  | .incomplete index => s!"incomplete utf-8 byte sequence from index {index}"

/-- A character under way: where it started, how many of its bytes have been seen, how many are
    missing, and the range of the next one. -/
structure Pending where
  start : Nat
  seen : Nat
  missing : Nat
  low : UInt8
  high : UInt8

/-- What a lead byte at `index` announces; `none` if no character starts with it.  A byte below
    80 is a character of its own, with nothing missing. -/
def Pending.ofLead (index : Nat) (byte : UInt8) : Option Pending :=
  if byte ≤ 0x7F then some ⟨index, 1, 0, 0x80, 0xBF⟩
  else if 0xC2 ≤ byte ∧ byte ≤ 0xDF then some ⟨index, 1, 1, 0x80, 0xBF⟩
  else if byte = 0xE0 then some ⟨index, 1, 2, 0xA0, 0xBF⟩
  else if byte = 0xED then some ⟨index, 1, 2, 0x80, 0x9F⟩
  else if 0xE1 ≤ byte ∧ byte ≤ 0xEF then some ⟨index, 1, 2, 0x80, 0xBF⟩
  else if byte = 0xF0 then some ⟨index, 1, 3, 0x90, 0xBF⟩
  else if 0xF1 ≤ byte ∧ byte ≤ 0xF3 then some ⟨index, 1, 3, 0x80, 0xBF⟩
  else if byte = 0xF4 then some ⟨index, 1, 3, 0x80, 0x8F⟩
  else none

/-- The first fault of `bytes`, whose first byte has index `index`, inside the character
    `pending`; `none` if there is none. -/
def firstFault (index : Nat) (pending : Option Pending) : List UInt8 → Option Fault
  | [] => pending.map fun p => .incomplete p.start
  | byte :: rest =>
    match pending with
    | none =>
      match Pending.ofLead index byte with
      | none => some (.invalid 1 index)
      | some p => firstFault (index + 1) (if p.missing = 0 then none else some p) rest
    | some p =>
      if p.low ≤ byte ∧ byte ≤ p.high then
        firstFault (index + 1)
          (if p.missing = 1 then none
           else some ⟨p.start, p.seen + 1, p.missing - 1, 0x80, 0xBF⟩) rest
      else some (.invalid p.seen p.start)

/-- Where a malformed byte sequence goes wrong.  On a well-formed one, which has no fault, it
    points behind the end. -/
def faultOf (bytes : List UInt8) : Fault :=
  (firstFault 0 none bytes).getD (.incomplete bytes.length)

/-- Every text is read back from its bytes. -/
theorem decode?_encode (text : String) : decode? (encode text) = some text := by
  have hbytes : (⟨text.toUTF8.data.toList.toArray⟩ : ByteArray) = text.toByteArray := by simp
  rw [decode?, encode, hbytes, String.fromUTF8?]
  split
  · rfl
  · rename_i hinvalid; exact absurd text.isValidUTF8 hinvalid

/-- Only the bytes of a text decode to it. -/
theorem eq_encode_of_decode? {bytes : List UInt8} {text : String}
    (hdecode : decode? bytes = some text) : bytes = encode text := by
  rw [decode?, String.fromUTF8?] at hdecode
  split at hdecode
  · cases hdecode; rfl
  · cases hdecode

theorem length_encode (text : String) : (encode text).length = size text := rfl

example : faultOf [0x61, 0xC3, 0xA9, 0xE2, 0x82] = .incomplete 3 := by decide
example : faultOf [0xED, 0xA0, 0x80] = .invalid 1 0 := by decide
example : faultOf [0x61, 0xF0, 0x9F, 0x98, 0x41] = .invalid 3 1 := by decide

end Lineage.Utf8
