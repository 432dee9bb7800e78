/-
  Streams of typed fields.

  A `Shape` names what can be written and read in one step; `Shape.Value` is the type of the
  values it takes and `Shape.codec` their format.  A `Writer` collects the bytes of a sequence of
  writes and a `Reader` goes through given bytes; both keep one layout throughout, and both go on
  after an error from where it left them.
-/
import Lineage.Wire.Records

namespace Lineage.Wire

/-! ## What can be written -/

/-- The nine record types. -/
inductive RecordKind where
  | location
  | libraryOrigin
  | visibility
  | parameterKind
  | classDescriptor
  | methodDescriptor
  | parameterInfo
  | callSignature
  | ancestorRecord
  deriving DecidableEq, Repr

namespace RecordKind

/-- The records of a kind. -/
abbrev Value : RecordKind → Type
  | location => Location
  | libraryOrigin => LibraryOrigin
  | visibility => Visibility
  | parameterKind => ParameterKind
  | classDescriptor => ClassDescriptor
  | methodDescriptor => MethodDescriptor
  | parameterInfo => ParameterInfo
  | callSignature => CallSignature
  | ancestorRecord => AncestorRecord

/-- The format of a kind. -/
def codec (layout : Layout) : (kind : RecordKind) → Codec kind.Value
  | location => Codec.location
  | libraryOrigin => Codec.libraryOrigin
  | visibility => Codec.visibility
  | parameterKind => Codec.parameterKind
  | classDescriptor => Codec.classDescriptor layout
  | methodDescriptor => Codec.methodDescriptor layout
  | parameterInfo => Codec.parameterInfo
  | callSignature => Codec.callSignature
  | ancestorRecord => Codec.ancestorRecord

end RecordKind

namespace OptionalKind

/-- The records that an optional field of this kind holds. -/
abbrev Value : OptionalKind → Type
  | location => Location
  | libraryOrigin => LibraryOrigin

/-- The format of an optional field of this kind. -/
def codec (layout : Layout) : (kind : OptionalKind) → Codec (Option kind.Value)
  | location => Codec.location.optional layout
  | libraryOrigin => Codec.libraryOrigin.optional layout

end OptionalKind

/-- One field of a stream. -/
inductive Shape where
  | u8
  | u16
  | u32
  | i32
  | bool
  | text
  | texts
  | record (kind : RecordKind)
  | records (kind : RecordKind)
  | optional (kind : OptionalKind)
  deriving DecidableEq, Repr

namespace Shape

/-- The values of a shape. -/
abbrev Value : Shape → Type
  | u8 => UInt8
  | u16 => UInt16
  | u32 => UInt32
  | i32 => Int32
  | bool => Bool
  | text => String
  | texts => List String
  | record kind => kind.Value
  | records kind => List kind.Value
  | optional kind => Option kind.Value

/-- The format of a shape. -/
def codec (layout : Layout) : (shape : Shape) → Codec shape.Value
  | u8 => Codec.u8
  | u16 => Codec.u16
  | u32 => Codec.u32
  | i32 => Codec.i32
  | bool => Codec.bool
  | text => Codec.text
  | texts => Codec.list Codec.text
  | record kind => kind.codec layout
  | records kind => Codec.list (kind.codec layout)
  | optional kind => kind.codec layout

end Shape

/-- Bytes of one layout, written in the other: what they decode to, and its new bytes. -/
def transcode (layout : Layout) (kind : RecordKind) (bytes : List UInt8) :
    Except DecodeError (Except EncodeError (List UInt8)) :=
  ((kind.codec layout).decode bytes).map (kind.codec layout.other).encode

/-! ## Writing and reading step by step -/

/-- A stream that is being written, in a layout. -/
structure Writer where
  layout : Layout
  bytes : List UInt8 := []

namespace Writer

/-- Append an output.  The bytes before a failure stay. -/
def append (writer : Writer) (output : Output) : Option EncodeError × Writer :=
  (output.failure, { writer with bytes := writer.bytes ++ output.bytes })

/-- Write one field. -/
def write (writer : Writer) (shape : Shape) (value : shape.Value) : Option EncodeError × Writer :=
  writer.append ((shape.codec writer.layout).put value)

/-- Write bytes as they are. -/
def raw (writer : Writer) (bytes : List UInt8) : Option EncodeError × Writer :=
  writer.append (.raw bytes)

end Writer

/-- A stream that is being read, in a layout. -/
structure Reader where
  layout : Layout
  cursor : Cursor

namespace Reader

/-- A stream over these bytes. -/
def ofBytes (layout : Layout) (bytes : List UInt8) : Reader := ⟨layout, .ofBytes bytes⟩

/-- Take one step of reading. -/
def step {α : Type} (reader : Reader) (read : Read α) : Except DecodeError α × Reader :=
  let (result, cursor) := read reader.cursor
  (result, { reader with cursor })

/-- Read one field. -/
def read (reader : Reader) (shape : Shape) : Except DecodeError shape.Value × Reader :=
  reader.step (shape.codec reader.layout).get

end Reader

end Lineage.Wire
