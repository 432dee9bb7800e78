/-
  Codecs: how the values of a type are written, and how they are read back.

  A codec is ONE description of a format with two readings, `put` and `get`.  The codecs of
  records are composed from those of numbers, texts, lists, optional fields and pairs, so the
  order and the width of every field is said once.

  Limits.  A text is preceded by its length and a list by its count, both of two bytes: a longer
  text or list is refused before anything of it is written.
-/
import Lineage.Wire.BigEndian
import Lineage.Wire.Cursor
import Lineage.Wire.Layout
import Lineage.Wire.Output

namespace Lineage.Wire

/-- A format: `put` writes a value in it, `get` reads one. -/
structure Codec (α : Type) where
  put : α → Output
  get : Read α

namespace Codec

variable {α β : Type}

/-! ## Whole values -/

/-- The bytes of a value. -/
def encode (codec : Codec α) (value : α) : Except EncodeError (List UInt8) :=
  (codec.put value).toExcept

/-- A value and nothing after it. -/
def exactly (codec : Codec α) : Read α := do
  let value ← codec.get
  Read.expectEnd
  return value

/-- The value whose bytes these are. -/
def decode (codec : Codec α) (bytes : List UInt8) : Except DecodeError α :=
  (codec.exactly (.ofBytes bytes)).1

/-! ## Numbers -/

/-- A number of `width` bytes. -/
def number (width : Nat) (toNat : α → Nat) (ofNat : Nat → α) : Codec α where
  put value := .raw (BigEndian.toBytes width (toNat value))
  get := do return ofNat (BigEndian.ofBytes (← Read.slice width))

/-- A number of one byte. -/
def u8 : Codec UInt8 := number 1 UInt8.toNat UInt8.ofNat
/-- A number of two bytes. -/
def u16 : Codec UInt16 := number 2 UInt16.toNat UInt16.ofNat
/-- A number of four bytes. -/
def u32 : Codec UInt32 := number 4 UInt32.toNat UInt32.ofNat

/-- A signed number, in two's complement. -/
def i32 : Codec Int32 := number 4 (·.toUInt32.toNat) (UInt32.ofNat · |>.toInt32)

/-- A value that has a byte of its own; any other byte is refused. -/
def ordinal (toByte : α → UInt8) (ofByte? : UInt8 → Option α) (refuse : UInt8 → DecodeError) :
    Codec α where
  put value := u8.put (toByte value)
  get := do
    let byte ← u8.get
    match ofByte? byte with
    | some value => return value
    | none => Read.fail (refuse byte)

/-- The truth value of a byte that stands for one. -/
def boolOfByte? : UInt8 → Option Bool
  | 0 => some false
  | 1 => some true
  | _ => none

/-- A truth value, as a byte that is 0 or 1. -/
def bool : Codec Bool := ordinal Bool.toUInt8 boolOfByte? .invalidBool

/-! ## Texts and lists -/

/-- The greatest length and count that two bytes hold. -/
def countLimit : Nat := 65535

/-- A text: the number of its bytes, then its bytes. -/
def text : Codec String where
  put value :=
    if Utf8.size value ≤ countLimit then
      u16.put (.ofNat (Utf8.size value)) ++ .raw (Utf8.encode value)
    else .fail (.stringTooLong (Utf8.size value))
  get := do
    let length ← u16.get
    let bytes ← Read.slice length.toNat
    match Utf8.decode? bytes with
    | some value => return value
    | none => Read.fail (.invalidUtf8 (Utf8.faultOf bytes))

/-- A list: the number of its items, then the items. -/
def list (item : Codec α) : Codec (List α) where
  put items :=
    if items.length ≤ countLimit then
      u16.put (.ofNat items.length) ++ .concat (items.map item.put)
    else .fail (.tooManyItems items.length)
  get := do
    let count ← u16.get
    item.get.times count.toNat

/-! ## Optional fields -/

/-- A record type with an all-empty value that stands for "absent". -/
class HasSentinel (α : Type) where
  kind : OptionalKind
  sentinel : α

/-- An optional field where absence is written as the sentinel.  A field that is present and
    equal to the sentinel would read back as absent, and is refused. -/
def orSentinel [DecidableEq α] [HasSentinel α] (codec : Codec α) : Codec (Option α) where
  put
    | none => codec.put HasSentinel.sentinel
    | some value =>
      if value = HasSentinel.sentinel then .fail (.ambiguousSentinel (HasSentinel.kind α))
      else codec.put value
  get := do
    let value ← codec.get
    return if value = HasSentinel.sentinel then none else some value

/-- An optional field with a byte in front that says whether it is there. -/
def tagged (codec : Codec α) : Codec (Option α) where
  put
    | none => u8.put 0
    | some value => u8.put 1 ++ codec.put value
  get := do
    let tag ← u8.get
    if tag = 0 then return none
    else if tag = 1 then return some (← codec.get)
    else Read.fail (.invalidPresenceTag tag)

/-- An optional field in the given layout. -/
def optional [DecidableEq α] [HasSentinel α] (layout : Layout) (codec : Codec α) :
    Codec (Option α) :=
  match layout with
  | .legacy => codec.orSentinel
  | .tagged => codec.tagged

/-! ## Records -/

/-- Two fields, one after the other. -/
def pair (first : Codec α) (second : Codec β) : Codec (α × β) where
  put value := first.put value.1 ++ second.put value.2
  get := do
    let a ← first.get
    let b ← second.get
    return (a, b)

/-- The same format for a type of the same shape. -/
def iso (codec : Codec α) (pack : α → β) (unpack : β → α) : Codec β where
  put value := codec.put (unpack value)
  get := do return pack (← codec.get)

end Codec

end Lineage.Wire
