/-
  The reasons for which bytes are refused as a record, and a record as bytes.
-/
import Lineage.Text.Utf8

namespace Lineage.Wire

/-- The record types that occur as optional fields. -/
inductive OptionalKind where
  | location
  | libraryOrigin
  deriving DecidableEq, Repr

/-- The name of a record type in messages. -/
def OptionalKind.name : OptionalKind → String
  | location => "Location"
  | libraryOrigin => "LibraryOrigin"

/-- Why a sequence of bytes is not what it should be. -/
inductive DecodeError where
  /-- A field of `needed` bytes starts where only `remaining` are left. -/
  | unexpectedEnd (needed remaining : Nat)
  | invalidVisibility (ordinal : UInt8)
  | invalidParameterKind (ordinal : UInt8)
  | invalidPresenceTag (tag : UInt8)
  | invalidBool (byte : UInt8)
  | invalidUtf8 (fault : Utf8.Fault)
  /-- The record ends before its bytes do. -/
  | trailingBytes (count : Nat)
  | badMagic
  | unsupportedVersion (version : UInt8)
  deriving DecidableEq, Repr

/-- An error as it is told. -/
def DecodeError.message : DecodeError → String
  | unexpectedEnd needed remaining =>
    s!"unexpected end of record stream: needed {needed} byte(s), {remaining} remaining"
  | invalidVisibility ordinal => s!"invalid visibility ordinal {ordinal}"
  | invalidParameterKind ordinal => s!"invalid parameter kind ordinal {ordinal}"
  | invalidPresenceTag tag => s!"invalid presence tag {tag} for optional field"
  | invalidBool byte => s!"invalid boolean byte {byte}"
  | invalidUtf8 fault => "invalid UTF-8 in string field: " ++ fault.message
  | trailingBytes count => s!"{count} trailing byte(s) after record"
  | badMagic => "not a contract store (bad magic)"
  | unsupportedVersion version => s!"unsupported contract store version {version}"

/-- Why a value has no bytes. -/
inductive EncodeError where
  /-- A text takes more bytes than its length prefix can count. -/
  | stringTooLong (bytes : Nat)
  /-- A list has more items than its count prefix can count. -/
  | tooManyItems (items : Nat)
  /-- A present field would read back as an absent one. -/
  | ambiguousSentinel (record : OptionalKind)
  deriving DecidableEq, Repr

/-- An error as it is told. -/
def EncodeError.message : EncodeError → String
  | stringTooLong bytes => s!"string of {bytes} bytes exceeds the 65535 byte limit"
  | tooManyItems items => s!"collection of {items} items exceeds its count prefix"
  | ambiguousSentinel record => s!"present {record.name} equals the legacy absence sentinel"

end Lineage.Wire
