/-
  A reader never leaves its bytes.

  A reader can be told where it is by a mere index into its bytes.  What is left is then a
  difference, and a field is a range of the bytes; neither is there if the index is beyond the end.
  `Indexed` is such reading, and has no outcome where a difference would be below zero or a range
  would end after the bytes.

  From an index within the bytes, reading each field has an outcome, the same as reading it with a
  cursor, and ends at an index within the bytes that is no lower (`Indexed.Follows`).  The relation
  says nothing about success, so it composes whether steps fail or not: a sequence of two such
  steps is one (`Follows.bind`), and all fields are sequences of slices.  Hence an operation leaves
  a reader where another one may start, and any number of them may follow each other.

  Where a failed operation leaves the reader is read off the inversions of the single steps.
-/
import Lineage.Proofs.Wire.Truncation
import Mathlib.Data.List.Induction

namespace Lineage.Wire

variable {α β : Type}

/-! ## Reading by an index -/

/-- A step of reading at an index of some bytes.  It has no outcome if it would take a difference
    below zero, or a range that is not within the bytes. -/
def Indexed (α : Type) : Type := List UInt8 → Nat → Option (Except DecodeError α × Nat)

namespace Indexed

/-- Read nothing, and give this value. -/
def pure (value : α) : Indexed α := fun _ index => some (.ok value, index)

/-- Read nothing, and fail. -/
def fail (error : DecodeError) : Indexed α := fun _ index => some (.error error, index)

/-- Go on where a step succeeded; an access outside the buffer is the end of all. -/
def bind (step : Indexed α) (next : α → Indexed β) : Indexed β := fun bytes index =>
  match step bytes index with
  | some (.ok value, after) => next value bytes after
  | some (.error error, after) => some (.error error, after)
  | none => none

instance : Monad Indexed where
  pure := pure
  bind := bind

/-- The number of bytes that are left. -/
def remaining : Indexed Nat := fun bytes index =>
  if index ≤ bytes.length then some (.ok (bytes.length - index), index) else none

/-- The range of `count` bytes from the index on.  The index goes to the end of it. -/
def range (count : Nat) : Indexed (List UInt8) := fun bytes index =>
  if index + count ≤ bytes.length then
    some (.ok ((bytes.drop index).take count), index + count)
  else none

/-- The next `count` bytes, if so many are left; this is asked before they are taken. -/
def slice (count : Nat) : Indexed (List UInt8) := do
  let left ← remaining
  if left < count then fail (.unexpectedEnd count left) else range count

/-- Nothing may be left. -/
def expectEnd : Indexed Unit := do
  match ← remaining with
  | 0 => return ()
  | count + 1 => fail (.trailingBytes (count + 1))

/-- So many values, one after the other. -/
def times (step : Indexed α) : (count : Nat) → Indexed (List α)
  | 0 => return []
  | count + 1 => do
    let value ← step
    let values ← times step count
    return value :: values

/-! ### Fields -/

/-- A number of `width` bytes. -/
def number (width : Nat) (ofNat : Nat → α) : Indexed α := do
  return ofNat (BigEndian.ofBytes (← slice width))

/-- A number of one byte. -/
def u8 : Indexed UInt8 := number 1 UInt8.ofNat
/-- A number of two bytes. -/
def u16 : Indexed UInt16 := number 2 UInt16.ofNat
/-- A number of four bytes. -/
def u32 : Indexed UInt32 := number 4 UInt32.ofNat
/-- A signed number of four bytes. -/
def i32 : Indexed Int32 := number 4 (UInt32.ofNat · |>.toInt32)

/-- A value that has a byte of its own. -/
def ordinal (ofByte? : UInt8 → Option α) (refuse : UInt8 → DecodeError) : Indexed α := do
  let byte ← u8
  match ofByte? byte with
  | some value => return value
  | none => fail (refuse byte)

/-- A truth value. -/
def bool : Indexed Bool := ordinal Codec.boolOfByte? .invalidBool

/-- A text: its length, then its bytes. -/
def text : Indexed String := do
  let length ← u16
  let bytes ← slice length.toNat
  match Utf8.decode? bytes with
  | some value => return value
  | none => fail (.invalidUtf8 (Utf8.faultOf bytes))

/-- A list: its count, then its items. -/
def list (item : Indexed α) : Indexed (List α) := do
  let count ← u16
  -- Room is made for as many items as there can be, and so for what is left at most.
  let _room ← remaining
  times item count.toNat

/-- An optional field in the given layout. -/
def optional [DecidableEq α] [Codec.HasSentinel α] (layout : Layout) (item : Indexed α) :
    Indexed (Option α) :=
  match layout with
  | .legacy => do
    let value ← item
    return if value = Codec.HasSentinel.sentinel then none else some value
  | .tagged => do
    let tag ← u8
    if tag = 0 then return none
    else if tag = 1 then return some (← item)
    else fail (.invalidPresenceTag tag)

/-! ### Records -/

/-- A place. -/
def location : Indexed Location := do
  let path ← text
  let line ← i32
  return ⟨path, line⟩

/-- A release. -/
def libraryOrigin : Indexed LibraryOrigin := do
  let name ← text
  let version ← text
  return ⟨name, version⟩

/-- A visibility. -/
def visibility : Indexed Visibility := ordinal Visibility.ofOrdinal? .invalidVisibility

/-- A kind of parameter. -/
def parameterKind : Indexed ParameterKind := ordinal ParameterKind.ofOrdinal? .invalidParameterKind

/-- A class. -/
def classDescriptor (layout : Layout) : Indexed ClassDescriptor := do
  let name ← text
  let origin ← libraryOrigin.optional layout
  return ⟨name, origin⟩

/-- A method. -/
def methodDescriptor (layout : Layout) : Indexed MethodDescriptor := do
  let owner ← classDescriptor layout
  let name ← text
  let visibility ← visibility
  let location ← location.optional layout
  return ⟨owner, name, visibility, location⟩

/-- A parameter. -/
def parameterInfo : Indexed ParameterInfo := do
  let name ← text
  let kind ← parameterKind
  return ⟨name, kind⟩

/-- A signature, field by field. -/
def callSignature : Indexed CallSignature := do
  let methodName ← text
  let receiverName ← text
  let visibility ← visibility
  let parameters ← parameterInfo.list
  let argumentTypes ← text.list
  let origin ← libraryOrigin
  let returnType ← text
  let isLocal ← bool
  return ⟨methodName, receiverName, visibility, parameters, argumentTypes, origin, returnType,
    isLocal⟩

/-- A chain. -/
def ancestorRecord : Indexed AncestorRecord := do
  let name ← text
  let ancestors ← text.list
  return ⟨name, ancestors⟩

end Indexed

/-- Read a record by an index. -/
def RecordKind.indexed (layout : Layout) : (kind : RecordKind) → Indexed kind.Value
  | location => Indexed.location
  | libraryOrigin => Indexed.libraryOrigin
  | visibility => Indexed.visibility
  | parameterKind => Indexed.parameterKind
  | classDescriptor => Indexed.classDescriptor layout
  | methodDescriptor => Indexed.methodDescriptor layout
  | parameterInfo => Indexed.parameterInfo
  | callSignature => Indexed.callSignature
  | ancestorRecord => Indexed.ancestorRecord

/-- Read an optional field by an index. -/
def OptionalKind.indexed (layout : Layout) : (kind : OptionalKind) → Indexed (Option kind.Value)
  | location => Indexed.location.optional layout
  | libraryOrigin => Indexed.libraryOrigin.optional layout

/-- Read a field by an index. -/
def Shape.indexed (layout : Layout) : (shape : Shape) → Indexed shape.Value
  | u8 => Indexed.u8
  | u16 => Indexed.u16
  | u32 => Indexed.u32
  | i32 => Indexed.i32
  | bool => Indexed.bool
  | text => Indexed.text
  | texts => Indexed.text.list
  | record kind => kind.indexed layout
  | records kind => (kind.indexed layout).list
  | optional kind => kind.indexed layout

/-! ## Reading by an index and reading with a cursor -/

/-- The cursor at an index of some bytes. -/
def Cursor.into (bytes : List UInt8) (index : Nat) : Cursor := ⟨index, bytes.drop index⟩

theorem Cursor.remaining_into (bytes : List UInt8) (index : Nat) :
    (Cursor.into bytes index).remaining = bytes.length - index :=
  List.length_drop

namespace Indexed

/-- From each index within any bytes a step has an outcome, which is that of reading with a cursor,
    and ends at an index within the bytes, no lower than it began. -/
def Follows (step : Indexed α) (read : Read α) : Prop :=
  ∀ bytes index, index ≤ bytes.length → ∃ result after,
    step bytes index = some (result, after) ∧
    read (.into bytes index) = (result, .into bytes after) ∧
    index ≤ after ∧ after ≤ bytes.length

theorem follows_pure (value : α) : (Pure.pure value : Indexed α).Follows (Pure.pure value) :=
  fun _ index hIndex => ⟨.ok value, index, rfl, rfl, Nat.le_refl index, hIndex⟩

theorem follows_fail (error : DecodeError) : (fail error : Indexed α).Follows (Read.fail error) :=
  fun _ index hIndex => ⟨.error error, index, rfl, rfl, Nat.le_refl index, hIndex⟩

theorem remaining_of_le {bytes : List UInt8} {index : Nat} (hIndex : index ≤ bytes.length) :
    remaining bytes index = some (.ok (bytes.length - index), index) :=
  if_pos hIndex

/-- Inside the buffer the bytes are taken only if they are all there. -/
theorem slice_of_le {bytes : List UInt8} {index : Nat} (hIndex : index ≤ bytes.length)
    (count : Nat) :
    slice count bytes index =
      if bytes.length - index < count then
        some (.error (.unexpectedEnd count (bytes.length - index)), index)
      else range count bytes index := by
  show Indexed.bind remaining _ bytes index = _
  rw [Indexed.bind, remaining_of_le hIndex]
  dsimp only
  split
  · rfl
  · rfl

/-- **A slice** has a guard, which keeps the range within the bytes. -/
theorem follows_slice (count : Nat) : (slice count).Follows (Read.slice count) := by
  intro bytes index hIndex
  rw [slice_of_le hIndex]
  -- Too short: no access at all. Long enough: the range ends inside the buffer.
  by_cases hShort : bytes.length - index < count
  · rw [if_pos hShort]
    refine ⟨_, index, rfl, ?_, Nat.le_refl index, hIndex⟩
    rw [Read.slice_eq_error_iff, Cursor.remaining_into]
    exact ⟨rfl, rfl, hShort⟩
  · have hRange : index + count ≤ bytes.length := by omega
    rw [if_neg hShort, range, if_pos hRange]
    refine ⟨_, index + count, rfl, ?_, Nat.le_add_right index count, hRange⟩
    have hTaken : ((bytes.drop index).take count).length = count := by
      rw [List.length_take, List.length_drop]
      omega
    rw [Read.slice_eq_ok_iff]
    refine ⟨hTaken, ?_, ?_⟩
    · show bytes.drop index = (bytes.drop index).take count ++ bytes.drop (index + count)
      rw [← List.drop_drop, List.take_append_drop]
    · show index + count = index + ((bytes.drop index).take count).length
      rw [hTaken]

/-- The end is looked for at the length of the buffer. -/
theorem follows_expectEnd : expectEnd.Follows Read.expectEnd := by
  intro bytes index hIndex
  show ∃ result after, Indexed.bind remaining _ bytes index = _ ∧ _
  rw [Indexed.bind, remaining_of_le hIndex, Read.expectEnd, Cursor.remaining_into]
  cases bytes.length - index with
  | zero => exact ⟨.ok (), index, rfl, rfl, Nat.le_refl index, hIndex⟩
  | succ count =>
    exact ⟨.error (.trailingBytes (count + 1)), index, rfl, rfl, Nat.le_refl index, hIndex⟩

/-- **A sequence of two steps** goes on where the first one left off, or stops there. -/
theorem Follows.bind {step : Indexed α} {read : Read α} {next : α → Indexed β}
    {nextRead : α → Read β} (hStep : step.Follows read)
    (hNext : ∀ value, (next value).Follows (nextRead value)) :
    (step >>= next).Follows (read >>= nextRead) := by
  intro bytes index hIndex
  obtain ⟨result, middle, hFirst, hRead, hForward, hWithin⟩ := hStep bytes index hIndex
  show ∃ result after, Indexed.bind step next bytes index = _ ∧ Read.bind read nextRead _ = _ ∧ _
  rw [Indexed.bind, hFirst, Read.bind, hRead]
  cases result with
  | error error => exact ⟨.error error, middle, rfl, rfl, hForward, hWithin⟩
  | ok value =>
    obtain ⟨result, after, hSecond, hRead', hForward', hWithin'⟩ :=
      hNext value bytes middle hWithin
    exact ⟨result, after, hSecond, hRead', Nat.le_trans hForward hForward', hWithin'⟩

/-- A look at what is left changes nothing. -/
theorem Follows.look {step : Indexed α} {read : Read α} (hStep : step.Follows read) :
    (remaining >>= fun _ => step).Follows read := by
  intro bytes index hIndex
  show ∃ result after, Indexed.bind remaining _ bytes index = _ ∧ _
  rw [Indexed.bind, remaining_of_le hIndex]
  exact hStep bytes index hIndex

/-- What follows once follows any number of times. -/
theorem Follows.times {step : Indexed α} {read : Read α} (hStep : step.Follows read)
    (count : Nat) : (step.times count).Follows (read.times count) := by
  induction count with
  | zero => exact follows_pure []
  | succ n ih =>
    rw [Read.times_succ]
    exact hStep.bind fun value => ih.bind fun values => follows_pure (value :: values)

/-! ### Fields -/

theorem follows_number {width : Nat} {toNat : α → Nat} {ofNat : Nat → α} :
    (number width ofNat).Follows (Codec.number width toNat ofNat).get := by
  apply (follows_slice width).bind
  intro bytes
  exact follows_pure (ofNat (BigEndian.ofBytes bytes))

theorem follows_ordinal {toByte : α → UInt8} {ofByte? : UInt8 → Option α}
    {refuse : UInt8 → DecodeError} :
    (ordinal ofByte? refuse).Follows (Codec.ordinal toByte ofByte? refuse).get := by
  apply Follows.bind follows_number
  intro byte
  cases ofByte? byte with
  | none => exact follows_fail (refuse byte)
  | some value => exact follows_pure value

theorem follows_text : text.Follows Codec.text.get := by
  apply Follows.bind follows_number
  intro length
  apply (follows_slice length.toNat).bind
  intro bytes
  cases Utf8.decode? bytes with
  | none => exact follows_fail (.invalidUtf8 (Utf8.faultOf bytes))
  | some value => exact follows_pure value

theorem Follows.list {item : Indexed α} {codec : Codec α} (hItem : item.Follows codec.get) :
    (Indexed.list item).Follows (Codec.list codec).get := by
  apply Follows.bind follows_number
  intro count
  exact (hItem.times count.toNat).look

/-- An optional field is looked at in the same way in both readings. -/
theorem Follows.optional [DecidableEq α] [Codec.HasSentinel α] {item : Indexed α}
    {codec : Codec α} (hItem : item.Follows codec.get) (layout : Layout) :
    (item.optional layout).Follows (codec.optional layout).get := by
  cases layout with
  | legacy =>
    apply hItem.bind
    intro value
    exact follows_pure _
  | tagged =>
    apply Follows.bind follows_number
    intro tag
    by_cases hZero : tag = 0
    · rw [if_pos hZero, if_pos hZero]
      exact follows_pure none
    · rw [if_neg hZero, if_neg hZero]
      by_cases hOne : tag = 1
      · rw [if_pos hOne, if_pos hOne]
        apply hItem.bind
        intro value
        exact follows_pure (some value)
      · rw [if_neg hOne, if_neg hOne]
        exact follows_fail (.invalidPresenceTag tag)

/-! ### Records -/

/-- Two fields in front of others are read one after the other. -/
theorem Follows.pair {γ : Type} {first : Codec α} {second : Codec β} {step : Indexed α}
    {next : α → Indexed γ} {last : α × β → Read γ} (hFirst : step.Follows first.get)
    (hRest : ∀ a, (next a).Follows (second.get >>= fun b => last (a, b))) :
    (step >>= next).Follows ((first.pair second).get >>= last) := by
  have hPair : (first.pair second).get >>= last =
      first.get >>= fun a => second.get >>= fun b => last (a, b) := by
    show (first.get >>= fun a => second.get >>= fun b => Pure.pure (a, b)) >>= last = _
    rw [Read.bind_assoc]
    congr 1
    funext a
    rw [Read.bind_assoc]
    rfl
  rw [hPair]
  exact hFirst.bind hRest

theorem follows_location : location.Follows Codec.location.get := by
  apply follows_text.pair
  intro path
  apply Follows.bind follows_number
  intro line
  exact follows_pure (Location.mk path line)

theorem follows_libraryOrigin : libraryOrigin.Follows Codec.libraryOrigin.get := by
  apply follows_text.pair
  intro name
  apply follows_text.bind
  intro version
  exact follows_pure (LibraryOrigin.mk name version)

theorem follows_classDescriptor (layout : Layout) :
    (classDescriptor layout).Follows (Codec.classDescriptor layout).get := by
  apply follows_text.pair
  intro name
  apply (follows_libraryOrigin.optional layout).bind
  intro origin
  exact follows_pure (ClassDescriptor.mk name origin)

theorem follows_methodDescriptor (layout : Layout) :
    (methodDescriptor layout).Follows (Codec.methodDescriptor layout).get := by
  apply (follows_classDescriptor layout).pair
  intro owner
  apply follows_text.pair
  intro name
  apply Follows.pair follows_ordinal
  intro visibility
  apply (follows_location.optional layout).bind
  intro location
  exact follows_pure (MethodDescriptor.mk owner name visibility location)

theorem follows_parameterInfo : parameterInfo.Follows Codec.parameterInfo.get := by
  apply follows_text.pair
  intro name
  apply Follows.bind follows_ordinal
  intro kind
  exact follows_pure (ParameterInfo.mk name kind)

theorem follows_callSignature : callSignature.Follows Codec.callSignature.get := by
  apply follows_text.pair
  intro methodName
  apply follows_text.pair
  intro receiverName
  apply Follows.pair follows_ordinal
  intro visibility
  apply follows_parameterInfo.list.pair
  intro parameters
  apply follows_text.list.pair
  intro argumentTypes
  apply follows_libraryOrigin.pair
  intro origin
  apply follows_text.pair
  intro returnType
  apply Follows.bind follows_ordinal
  intro isLocal
  exact follows_pure _

theorem follows_ancestorRecord : ancestorRecord.Follows Codec.ancestorRecord.get := by
  apply follows_text.pair
  intro name
  apply follows_text.list.bind
  intro ancestors
  exact follows_pure (AncestorRecord.mk name ancestors)

end Indexed

open Indexed

/-- Every record is read inside the buffer. -/
theorem RecordKind.follows (layout : Layout) :
    (kind : RecordKind) → (kind.indexed layout).Follows (kind.codec layout).get
  | .location => follows_location
  | .libraryOrigin => follows_libraryOrigin
  | .visibility => follows_ordinal
  | .parameterKind => follows_ordinal
  | .classDescriptor => follows_classDescriptor layout
  | .methodDescriptor => follows_methodDescriptor layout
  | .parameterInfo => follows_parameterInfo
  | .callSignature => follows_callSignature
  | .ancestorRecord => follows_ancestorRecord

theorem OptionalKind.follows (layout : Layout) :
    (kind : OptionalKind) → (kind.indexed layout).Follows (kind.codec layout).get
  | .location => follows_location.optional layout
  | .libraryOrigin => follows_libraryOrigin.optional layout

/-- Every field of a stream is read inside the buffer. -/
theorem Shape.follows (layout : Layout) :
    (shape : Shape) → (shape.indexed layout).Follows (shape.codec layout).get
  | .u8 => follows_number
  | .u16 => follows_number
  | .u32 => follows_number
  | .i32 => (follows_number : Indexed.i32.Follows Codec.i32.get)
  | .bool => follows_ordinal
  | .text => follows_text
  | .texts => follows_text.list
  | .record kind => kind.follows layout
  | .records kind => (kind.follows layout).list
  | .optional kind => kind.follows layout

/-! ## Where a failure leaves the cursor -/

/-- A number fails only for want of bytes, and then nothing is taken. -/
theorem Codec.number_get_eq_error_iff {width : Nat} {toNat : α → Nat} {ofNat : Nat → α}
    {before after : Cursor} {error : DecodeError} :
    (Codec.number width toNat ofNat).get before = (.error error, after) ↔
      error = .unexpectedEnd width before.remaining ∧ after = before ∧
        before.remaining < width := by
  rw [← Read.slice_eq_error_iff]
  show (Read.slice width >>= fun bytes =>
    Pure.pure (ofNat (BigEndian.ofBytes bytes))) before = _ ↔ _
  rw [Read.bind_eq_error_iff]
  constructor
  · rintro (hSlice | ⟨bytes, middle, -, hPure⟩)
    · exact hSlice
    · cases hPure
  · intro hSlice
    exact .inl hSlice

/-- How the reading of a text fails, and where it leaves the cursor. -/
inductive TextFailure (before : Cursor) : DecodeError → Cursor → Prop
  /-- There are no two bytes for the length. -/
  | noLength (hShort : before.remaining < 2) :
      TextFailure before (.unexpectedEnd 2 before.remaining) before
  /-- After the length there are fewer bytes than it says. -/
  | noPayload (length : UInt16) (rest : List UInt8)
      (hRest : before.rest = BigEndian.toBytes 2 length.toNat ++ rest)
      (hShort : rest.length < length.toNat) :
      TextFailure before (.unexpectedEnd length.toNat rest.length) ⟨before.position + 2, rest⟩
  /-- The bytes after the length are there, and are not those of a text. -/
  | badPayload (length : UInt16) (payload rest : List UInt8)
      (hRest : before.rest = BigEndian.toBytes 2 length.toNat ++ (payload ++ rest))
      (hLength : payload.length = length.toNat) (hInvalid : Utf8.decode? payload = none) :
      TextFailure before (.invalidUtf8 (Utf8.faultOf payload))
        ⟨before.position + 2 + length.toNat, rest⟩

/-- A text fails in one of the three ways. -/
theorem Codec.textFailure_of_get {before after : Cursor} {error : DecodeError}
    (hGet : Codec.text.get before = (.error error, after)) : TextFailure before error after := by
  rcases Read.bind_eq_error_iff.1 hGet with hLength | ⟨length, middle, hLength, hRest⟩
  · obtain ⟨rfl, rfl, hShort⟩ := Codec.number_get_eq_error_iff.1 hLength
    exact .noLength hShort
  -- The length was read, so its two bytes are behind the cursor.
  have hSpans : before.Spans (BigEndian.toBytes 2 length.toNat) middle :=
    Output.liesBetween_raw_iff.1 (Codec.faithful_u16.get_eq_ok_iff.1 hLength)
  obtain ⟨position, rest⟩ := middle
  obtain rfl : position = before.position + 2 := by
    have hPosition := hSpans.position
    rwa [BigEndian.length_toBytes] at hPosition
  rcases Read.bind_eq_error_iff.1 hRest with hSlice | ⟨payload, last, hSlice, hDecode⟩
  · obtain ⟨rfl, rfl, hShort⟩ := Read.slice_eq_error_iff.1 hSlice
    exact .noPayload length rest hSpans.rest hShort
  · obtain ⟨hPayload, hOver⟩ := Read.slice_eq_ok_iff.1 hSlice
    have hBytes : before.rest = BigEndian.toBytes 2 length.toNat ++ (payload ++ last.rest) := by
      rw [hSpans.rest, ← hOver.rest]
    cases hText : Utf8.decode? payload with
    | some value =>
      rw [hText] at hDecode
      cases hDecode
    | none =>
      rw [hText] at hDecode
      cases hDecode
      obtain ⟨position, behind⟩ := after
      obtain rfl : position = before.position + 2 + length.toNat := by
        rw [← hPayload]
        exact hOver.position
      exact .badPayload length payload behind hBytes hPayload hText

/-! ## Any number of operations -/

/-- An operation of a reader. -/
inductive ReaderStep where
  | slice (count : Nat)
  | field (shape : Shape)
  | expectEnd

namespace ReaderStep

/-- What a step of reading yields. -/
abbrev Value : ReaderStep → Type
  | slice _ => List UInt8
  | field shape => shape.Value
  | expectEnd => Unit

/-- A step, as the reader takes it. -/
def read (layout : Layout) : (step : ReaderStep) → Read step.Value
  | slice count => Read.slice count
  | field shape => (shape.codec layout).get
  | expectEnd => Read.expectEnd

/-- A step, as it accesses the buffer. -/
def indexed (layout : Layout) : (step : ReaderStep) → Indexed step.Value
  | slice count => Indexed.slice count
  | field shape => shape.indexed layout
  | expectEnd => Indexed.expectEnd

/-- The number of bytes of a slice or a number. -/
def width? : ReaderStep → Option Nat
  | slice count => some count
  | field .u8 => some 1
  | field .u16 => some 2
  | field .u32 => some 4
  | field .i32 => some 4
  | _ => none

/-- Every step is taken inside the buffer. -/
theorem follows (layout : Layout) :
    (step : ReaderStep) → (step.indexed layout).Follows (step.read layout)
  | slice count => follows_slice count
  | field shape => shape.follows layout
  | expectEnd => follows_expectEnd

/-- A slice or a number fails only for want of bytes, and then the cursor stays where it is. -/
theorem read_eq_error_of_width {step : ReaderStep} {layout : Layout} {width : Nat}
    {before after : Cursor} {error : DecodeError} (hWidth : step.width? = some width)
    (hRead : step.read layout before = (.error error, after)) :
    error = .unexpectedEnd width before.remaining ∧ after = before ∧ before.remaining < width := by
  cases step with
  | slice count =>
    cases hWidth
    exact Read.slice_eq_error_iff.1 hRead
  | expectEnd => cases hWidth
  | field shape =>
    cases shape with
    | u8 | u16 | u32 =>
      cases hWidth
      exact Codec.number_get_eq_error_iff.1 hRead
    | i32 =>
      cases hWidth
      have hNumber : Codec.i32.get before = (.error error, after) := hRead
      exact Codec.number_get_eq_error_iff.1 hNumber
    | _ => cases hWidth

/-- The index after some operations, one after the other, if all of them have outcomes. -/
def indexAfter (layout : Layout) (bytes : List UInt8) (steps : List ReaderStep) : Option Nat :=
  steps.foldlM (fun index step => (step.indexed layout bytes index).map Prod.snd) 0

end ReaderStep

namespace Reader

/-- Carry out an operation. -/
def perform (reader : Reader) (step : ReaderStep) : Except DecodeError step.Value × Reader :=
  reader.step (step.read reader.layout)

/-- Carry out one operation after the other, whether they fail or not. -/
def performAll (reader : Reader) (steps : List ReaderStep) : Reader :=
  steps.foldl (fun reader step => (reader.perform step).2) reader

/-- The reader is somewhere in these bytes, and what it has still to come is what comes there. -/
structure Within (reader : Reader) (layout : Layout) (bytes : List UInt8) : Prop where
  layout : reader.layout = layout
  position : reader.cursor.position ≤ bytes.length
  remaining : reader.cursor.position + reader.cursor.remaining = bytes.length
  rest : reader.cursor.rest = bytes.drop reader.cursor.position

/-- What an operation does to a reader within some bytes. -/
structure Moves (reader : Reader) (layout : Layout) (bytes : List UInt8) (step : ReaderStep)
    (result : Except DecodeError step.Value) (after : Reader) : Prop where
  within : after.Within layout bytes
  forward : reader.cursor.position ≤ after.cursor.position
  /-- No difference was below zero and no range out of the bytes. -/
  indexed : step.indexed layout bytes reader.cursor.position =
    some (result, after.cursor.position)
  /-- A slice or a number that fails leaves the reader where it was. -/
  fixed : ∀ width error, step.width? = some width → result = .error error →
    after = reader ∧ error = .unexpectedEnd width reader.cursor.remaining ∧
      reader.cursor.remaining < width
  /-- A text that fails leaves it where it was, behind the length, or behind the payload. -/
  text : step = .field .text → ∀ error, result = .error error →
    TextFailure reader.cursor error after.cursor

/-- A reader at an index inside the buffer is within it. -/
theorem within_into {layout : Layout} {bytes : List UInt8} {index : Nat}
    (hIndex : index ≤ bytes.length) :
    (Reader.mk layout (.into bytes index)).Within layout bytes where
  layout := rfl
  position := hIndex
  remaining := by
    show index + (Cursor.into bytes index).remaining = bytes.length
    rw [Cursor.remaining_into]
    omega
  rest := rfl

/-- A reader within a buffer is determined by its position. -/
theorem Within.eq_into {reader : Reader} {layout : Layout} {bytes : List UInt8}
    (hWithin : reader.Within layout bytes) :
    reader = ⟨layout, .into bytes reader.cursor.position⟩ := by
  obtain ⟨readerLayout, position, rest⟩ := reader
  obtain rfl : readerLayout = layout := hWithin.layout
  obtain rfl : rest = bytes.drop position := hWithin.rest
  rfl

/-- **One operation**, and whatever comes of it. -/
theorem Within.moves {reader : Reader} {layout : Layout} {bytes : List UInt8}
    (hWithin : reader.Within layout bytes) (step : ReaderStep) :
    reader.Moves layout bytes step (reader.perform step).1 (reader.perform step).2 := by
  have hPosition := hWithin.position
  rw [hWithin.eq_into]
  generalize reader.cursor.position = index at hPosition
  obtain ⟨result, after, hIndexed, hRead, hForward, hAfter⟩ :=
    step.follows layout bytes index hPosition
  have hPerform : (Reader.mk layout (.into bytes index)).perform step =
      (result, ⟨layout, .into bytes after⟩) := by
    rw [perform, Reader.step, hRead]
  rw [hPerform]
  refine ⟨within_into hAfter, hForward, hIndexed, ?_, ?_⟩
  · rintro width error hWidth rfl
    obtain ⟨hError, hSame, hShort⟩ := ReaderStep.read_eq_error_of_width hWidth hRead
    exact ⟨congrArg (Reader.mk layout) hSame, hError, hShort⟩
  · rintro rfl error rfl
    exact Codec.textFailure_of_get hRead

/-- **All operations before it** left the reader within its bytes. -/
theorem within_performAll (layout : Layout) (bytes : List UInt8) (steps : List ReaderStep) :
    ((ofBytes layout bytes).performAll steps).Within layout bytes ∧
      ReaderStep.indexAfter layout bytes steps =
        some ((ofBytes layout bytes).performAll steps).cursor.position := by
  -- On the steps, the last one first off: the reader is within the buffer before it, so it moves
  -- inside.
  induction steps using List.reverseRecOn with
  | nil => exact ⟨within_into (Nat.zero_le _), rfl⟩
  | append_singleton before step ih =>
    obtain ⟨hWithin, hIndex⟩ := ih
    have hMoves := hWithin.moves step
    have hPerform : (ofBytes layout bytes).performAll (before ++ [step]) =
        (((ofBytes layout bytes).performAll before).perform step).2 := by
      rw [performAll, List.foldl_append]
      rfl
    rw [hPerform]
    refine ⟨hMoves.within, ?_⟩
    rw [ReaderStep.indexAfter] at hIndex ⊢
    rw [List.foldlM_append, hIndex]
    show ((step.indexed layout bytes _).map Prod.snd >>= Pure.pure) = _
    rw [hMoves.indexed]
    rfl

/-- **A reader never leaves its bytes**: whatever was read with it, in whichever layout and with
    whatever errors, its position is within the bytes, what remains is the rest of them, and the
    next operation goes no way back.  Failed slices and numbers stay where they were, a failed text
    stays there, behind its length or behind its payload; and no index that was computed on the way
    was out of the bytes. -/
theorem performAll_within_bytes (layout : Layout) (bytes : List UInt8) (steps : List ReaderStep) :
    let reader := (ofBytes layout bytes).performAll steps
    reader.Within layout bytes ∧
      ReaderStep.indexAfter layout bytes steps = some reader.cursor.position ∧
      ∀ step, reader.Moves layout bytes step (reader.perform step).1 (reader.perform step).2 := by
  obtain ⟨hWithin, hIndex⟩ := within_performAll layout bytes steps
  exact ⟨hWithin, hIndex, hWithin.moves⟩

/-- The text fails behind its length, and the number that is then read in its place succeeds. -/
example : ((ofBytes .tagged [0, 9, 65, 66]).performAll [.field .text, .field .u16]).cursor =
    ⟨4, []⟩ := by
  decide

end Reader

end Lineage.Wire
