/-
  Which values have no bytes, and why.

  Three things are checked while a value is written: that the length of a text and the number of
  items of a list fit into two bytes, and, in the legacy layout, that an optional field which is
  present can be told from an absent one.  `RecordKind.checks` lists what is checked of a record in
  the order in which it is written: the count of a list comes before the items, the check of an
  optional field before what is in it, and the mandatory origin of a signature has no such check.

  A value has bytes if it passes all its checks, and otherwise the FIRST check that fails says why
  not.  A format of which this is true is `Checked`.  The property composes along the fields of a
  record, as the first error of two lists of checks is that of the first list or else that of the
  second (`Check.firstError_append`), and an output fails in the same way (`Output.failure_append`).

  What a failed write leaves in a writer is what was there, and behind it the fields before the one
  that failed.  Of a sequence of writes every one adds the same bytes wherever it stands.
-/
import Lineage.Proofs.Wire.Migration
import Lineage.Proofs.Wire.StoreFormat
import Lineage.Proofs.Wire.StreamRoundTrip

namespace Lineage.Wire

variable {α β : Type}

/-! ## Checks -/

/-- What is checked while a value is written. -/
inductive Check where
  /-- The length of a text. -/
  | text (value : String)
  /-- The number of items of a list. -/
  | items (count : Nat)
  /-- That an optional field can be told from an absent one. -/
  | optional (field : OptionalField)

namespace Check

/-- Is the check passed in this layout?  A presence byte tells any field from an absent one. -/
def Passes (layout : Layout) : Check → Prop
  | text value => Utf8.size value ≤ Codec.countLimit
  | items count => count ≤ Codec.countLimit
  | optional field => layout = .legacy → field.holdsSentinel = false

instance (layout : Layout) : DecidablePred (Passes layout)
  | text value => inferInstanceAs (Decidable (Utf8.size value ≤ Codec.countLimit))
  | items count => inferInstanceAs (Decidable (count ≤ Codec.countLimit))
  | optional field => inferInstanceAs (Decidable (layout = .legacy → field.holdsSentinel = false))

/-- Why a value is refused that does not pass. -/
def error : Check → EncodeError
  | text value => .stringTooLong (Utf8.size value)
  | items count => .tooManyItems count
  | optional field => .ambiguousSentinel field.kind

/-- The checks before some check are passed, this one fails, and `error` is the reason. -/
def FirstFails (layout : Layout) (checks : List Check) (error : EncodeError) : Prop :=
  ∃ before check after, checks = before ++ check :: after ∧
    (∀ earlier ∈ before, earlier.Passes layout) ∧ ¬ check.Passes layout ∧ error = check.error

/-- The reason given by the first check that fails. -/
def firstError (layout : Layout) (checks : List Check) : Option EncodeError :=
  checks.findSome? fun check => if check.Passes layout then none else some check.error

variable {layout : Layout} {checks : List Check}

theorem passes_tagged (field : OptionalField) : (optional field).Passes .tagged :=
  fun hLegacy => nomatch hLegacy

/-- The legacy layout accepts those that do not hold their sentinel. -/
theorem passes_legacy_iff {field : OptionalField} :
    (optional field).Passes .legacy ↔ field.holdsSentinel = false :=
  forall_prop_of_true rfl

theorem firstError_append (checks more : List Check) :
    firstError layout (checks ++ more) = (firstError layout checks).or (firstError layout more) :=
  List.findSome?_append

theorem firstError_singleton (check : Check) :
    firstError layout [check] = if check.Passes layout then none else some check.error := by
  rw [firstError, List.findSome?_singleton]

theorem firstError_cons (check : Check) (rest : List Check) :
    firstError layout (check :: rest) =
      if check.Passes layout then firstError layout rest else some check.error := by
  rw [← List.singleton_append, firstError_append, firstError_singleton]
  split <;> rfl

/-- Of the checks of several items the first item that fails counts. -/
theorem firstError_flatMap (inside : α → List Check) (items : List α) :
    firstError layout (items.flatMap inside) =
      items.findSome? fun item => firstError layout (inside item) := by
  induction items with
  | nil => rfl
  | cons item rest ih =>
    rw [List.flatMap_cons, firstError_append, ih, List.findSome?_cons]
    cases firstError layout (inside item) <;> rfl

theorem firstError_eq_none_iff :
    firstError layout checks = none ↔ ∀ check ∈ checks, check.Passes layout := by
  simp [firstError, List.findSome?_eq_none_iff]

/-- The error is that of the first check that fails. -/
theorem firstError_eq_some_iff {error : EncodeError} :
    firstError layout checks = some error ↔ FirstFails layout checks error := by
  rw [firstError, List.findSome?_eq_some_iff, FirstFails]
  constructor
  · rintro ⟨before, check, after, hChecks, hError, hBefore⟩
    have hFails : ¬ check.Passes layout := by
      intro hPasses
      rw [if_pos hPasses] at hError
      cases hError
    rw [if_neg hFails] at hError
    refine ⟨before, check, after, hChecks, fun earlier hEarlier => ?_, hFails,
      (Option.some.inj hError).symm⟩
    simpa using hBefore earlier hEarlier
  · rintro ⟨before, check, after, hChecks, hBefore, hFails, rfl⟩
    exact ⟨before, check, after, hChecks, if_neg hFails,
      fun earlier hEarlier => if_pos (hBefore earlier hEarlier)⟩

/-! ### What is checked of a value -/

/-- A text may be too long. -/
def ofText (value : String) : List Check := [.text value]

/-- The count of a list, then what is in it. -/
def ofList (inside : α → List Check) (values : List α) : List Check :=
  .items values.length :: values.flatMap inside

/-- A place has its path checked. -/
def ofLocation (location : Location) : List Check := [.text location.path]

/-- A release has its name and its version checked. -/
def ofOrigin (origin : LibraryOrigin) : List Check := [.text origin.name, .text origin.version]

/-- An optional field, then what is in it. -/
def ofOptional : (kind : OptionalKind) → Option kind.Value → List Check
  | .location, value => .optional ⟨.location, value⟩ :: value.elim [] ofLocation
  | .libraryOrigin, value => .optional ⟨.libraryOrigin, value⟩ :: value.elim [] ofOrigin

/-- A class has its name checked, then its origin. -/
def ofClass (owner : ClassDescriptor) : List Check :=
  .text owner.name :: ofOptional .libraryOrigin owner.origin

/-- A method has its owner checked, its name, then its place. -/
def ofMethod (method : MethodDescriptor) : List Check :=
  ofClass method.owner ++ .text method.name :: ofOptional .location method.location

/-- A parameter has its name checked. -/
def ofParameter (parameter : ParameterInfo) : List Check := [.text parameter.name]

/-- A signature has its fields checked in the order in which they are written. -/
def ofSignature (signature : CallSignature) : List Check :=
  [.text signature.methodName, .text signature.receiverName] ++
    ofList ofParameter signature.parameters ++ ofList ofText signature.argumentTypes ++
    ofOrigin signature.origin ++ [.text signature.returnType]

/-- A chain has its name checked, then its ancestors. -/
def ofAncestors (record : AncestorRecord) : List Check :=
  .text record.name :: ofList ofText record.ancestors

end Check

/-- What is checked of a record, in the order in which it is written. -/
def RecordKind.checks : (kind : RecordKind) → kind.Value → List Check
  | .location => Check.ofLocation
  | .libraryOrigin => Check.ofOrigin
  | .visibility | .parameterKind => fun _ => []
  | .classDescriptor => Check.ofClass
  | .methodDescriptor => Check.ofMethod
  | .parameterInfo => Check.ofParameter
  | .callSignature => Check.ofSignature
  | .ancestorRecord => Check.ofAncestors

/-- What is checked of a field of a stream. -/
def Shape.checks : (shape : Shape) → shape.Value → List Check
  | .u8 | .u16 | .u32 | .i32 | .bool => fun _ => []
  | .text => Check.ofText
  | .texts => Check.ofList Check.ofText
  | .record kind => kind.checks
  | .records kind => Check.ofList kind.checks
  | .optional kind => Check.ofOptional kind

/-! ## Formats that check -/

theorem Output.failure_concat (parts : List Output) :
    (Output.concat parts).failure = parts.findSome? (·.failure) := by
  induction parts with
  | nil => rfl
  | cons part rest ih =>
    rw [concat_cons, failure_append, ih, List.findSome?_cons]
    cases part.failure <;> rfl

namespace Codec

open Check

variable {layout : Layout}

/-- What a format writes fails with the first check that fails. -/
structure Checked (layout : Layout) (codec : Codec α) (checks : α → List Check) : Prop where
  failure_put : ∀ value, (codec.put value).failure = firstError layout (checks value)

theorem checked_number {width : Nat} {toNat : α → Nat} {ofNat : Nat → α} :
    (number width toNat ofNat).Checked layout fun _ => [] :=
  ⟨fun _ => rfl⟩

theorem checked_ordinal {toByte : α → UInt8} {ofByte? : UInt8 → Option α}
    {refuse : UInt8 → DecodeError} : (ordinal toByte ofByte? refuse).Checked layout fun _ => [] :=
  ⟨fun _ => rfl⟩

/-- What follows a count is written if the count fits, and then it may fail by itself. -/
theorem failure_counted {size : Nat} {body : Output} {error : EncodeError} :
    (if size ≤ countLimit then u16.put (.ofNat size) ++ body else .fail error).failure =
      if size ≤ countLimit then body.failure else some error := by
  split
  · rw [Output.failure_append]
    rfl
  · rfl

theorem checked_text : text.Checked layout ofText where
  failure_put value := by
    rw [ofText, firstError_singleton]
    exact failure_counted

/-- A list is refused for its count, or for its first item that is refused. -/
theorem Checked.list {item : Codec α} {checks : α → List Check}
    (hItem : item.Checked layout checks) : (Codec.list item).Checked layout (ofList checks) where
  failure_put values := by
    have hItems : (Output.concat (values.map item.put)).failure =
        firstError layout (values.flatMap checks) := by
      rw [Output.failure_concat, List.findSome?_map, firstError_flatMap]
      congr 1
      funext value
      exact hItem.failure_put value
    rw [ofList, firstError_cons, ← hItems]
    exact failure_counted

section

variable [DecidableEq α] [HasSentinel α] {codec : Codec α} {checks : α → List Check}
  {field : Option α → OptionalField}

omit [DecidableEq α] [HasSentinel α] in
/-- A presence byte needs no check. -/
theorem Checked.tagged (hCodec : codec.Checked .tagged checks) :
    codec.tagged.Checked .tagged
      fun value => .optional (field value) :: value.elim [] checks where
  failure_put value := by
    rw [firstError_cons, if_pos (passes_tagged (field value))]
    cases value with
    | none => rfl
    | some present => exact (failure_tagged_some codec present).trans (hCodec.failure_put present)

/-- An optional field is checked before what is in it; of an absent one nothing else is checked,
    since its sentinel has bytes. -/
theorem Checked.orSentinel (hCodec : codec.Checked .legacy checks)
    (hSentinel : (codec.put HasSentinel.sentinel).failure = none)
    (hKind : ∀ value, (field value).kind = HasSentinel.kind α)
    (hHolds : ∀ value, (field value).holdsSentinel = decide (value = some HasSentinel.sentinel)) :
    codec.orSentinel.Checked .legacy
      fun value => .optional (field value) :: value.elim [] checks where
  failure_put value := by
    rw [firstError_cons, Check.error, hKind]
    have hPasses : (Check.optional (field value)).Passes .legacy ↔
        value ≠ some HasSentinel.sentinel := by
      rw [passes_legacy_iff, hHolds, decide_eq_false_iff_not]
    cases value with
    | none =>
      rw [if_pos (hPasses.2 nofun)]
      exact hSentinel
    | some present =>
      -- A field that equals the sentinel is refused before anything of it is checked.
      by_cases hPresent : present = HasSentinel.sentinel
      · rw [if_neg (fun h => hPasses.1 h (congrArg some hPresent)), hPresent]
        exact failure_orSentinel_sentinel codec
      · rw [if_pos (hPasses.2 fun hSome => hPresent (Option.some.inj hSome))]
        exact (failure_orSentinel_of_ne codec hPresent).trans (hCodec.failure_put present)

end

/-- Two fields are refused for the first one, or else for the second. -/
theorem Checked.pair {first : Codec α} {second : Codec β} {checks : α → List Check}
    {checks' : β → List Check} (hFirst : first.Checked layout checks)
    (hSecond : second.Checked layout checks') :
    (first.pair second).Checked layout fun value => checks value.1 ++ checks' value.2 where
  failure_put value := by
    rw [Codec.pair, Output.failure_append, hFirst.failure_put, hSecond.failure_put,
      firstError_append]

theorem Checked.iso {codec : Codec α} {checks : α → List Check}
    (hCodec : codec.Checked layout checks) {pack : α → β} {unpack : β → α}
    {checks' : β → List Check} (hChecks : ∀ value, checks (unpack value) = checks' value) :
    (codec.iso pack unpack).Checked layout checks' where
  failure_put value := by
    rw [← hChecks]
    exact hCodec.failure_put (unpack value)

/-! ### Records -/

theorem checked_location : location.Checked layout ofLocation :=
  (checked_text.pair checked_number).iso fun _ => rfl

theorem checked_libraryOrigin : libraryOrigin.Checked layout ofOrigin :=
  (checked_text.pair checked_text).iso fun _ => rfl

/-- An optional field is refused as ambiguous, or for what it holds. -/
theorem checked_optional (kind : OptionalKind) :
    (kind.codec layout).Checked layout (ofOptional kind) := by
  cases kind <;> cases layout
  case location.legacy => exact checked_location.orSentinel (by decide) (fun _ => rfl) fun _ => rfl
  case location.tagged => exact checked_location.tagged
  case libraryOrigin.legacy =>
    exact checked_libraryOrigin.orSentinel (by decide) (fun _ => rfl) fun _ => rfl
  case libraryOrigin.tagged => exact checked_libraryOrigin.tagged

theorem checked_classDescriptor : (classDescriptor layout).Checked layout ofClass :=
  (checked_text.pair (checked_optional .libraryOrigin)).iso fun _ => rfl

theorem checked_methodDescriptor : (methodDescriptor layout).Checked layout ofMethod :=
  (checked_classDescriptor.pair <| checked_text.pair <| checked_ordinal.pair <|
    checked_optional .location).iso fun _ => rfl

theorem checked_parameterInfo : parameterInfo.Checked layout ofParameter :=
  (checked_text.pair checked_ordinal).iso fun _ => rfl

theorem checked_callSignature : callSignature.Checked layout ofSignature := by
  refine (checked_text.pair <| checked_text.pair <| checked_ordinal.pair <|
    checked_parameterInfo.list.pair <| checked_text.list.pair <| checked_libraryOrigin.pair <|
    checked_text.pair checked_ordinal).iso fun signature => ?_
  simp only [ofSignature, ofText, List.append_assoc, List.append_nil, List.nil_append,
    List.cons_append]

theorem checked_ancestorRecord : ancestorRecord.Checked layout ofAncestors :=
  (checked_text.pair checked_text.list).iso fun _ => rfl

end Codec

/-- Every record is refused for the first of its checks that fails. -/
theorem RecordKind.checked (layout : Layout) :
    (kind : RecordKind) → (kind.codec layout).Checked layout kind.checks
  | .location => Codec.checked_location
  | .libraryOrigin => Codec.checked_libraryOrigin
  | .visibility | .parameterKind => Codec.checked_ordinal
  | .classDescriptor => Codec.checked_classDescriptor
  | .methodDescriptor => Codec.checked_methodDescriptor
  | .parameterInfo => Codec.checked_parameterInfo
  | .callSignature => Codec.checked_callSignature
  | .ancestorRecord => Codec.checked_ancestorRecord

/-- Every field of a stream is refused for the first of its checks that fails. -/
theorem Shape.checked (layout : Layout) :
    (shape : Shape) → (shape.codec layout).Checked layout shape.checks
  | .u8 | .u16 | .u32 => Codec.checked_number
  | .i32 => (Codec.checked_number : Codec.i32.Checked layout fun _ => [])
  | .bool => Codec.checked_ordinal
  | .text => Codec.checked_text
  | .texts => Codec.checked_text.list
  | .record kind => kind.checked layout
  | .records kind => (kind.checked layout).list
  | .optional kind => Codec.checked_optional kind

/-! ## Stores -/

theorem Output.toExcept_eq_error_iff {output : Output} {error : EncodeError} :
    output.toExcept = .error error ↔ output.failure = some error := by
  rw [toExcept]
  cases output.failure <;> simp

/-- **A store has no bytes** if its methods cannot be counted, or else if one of them has none; of
    these the first one says why. -/
theorem ContractStore.toBytes_eq_error_iff {store : ContractStore} {error : EncodeError} :
    store.toBytes = .error error ↔
      (methodLimit < store.methods.length ∧ error = .tooManyItems store.methods.length) ∨
      (store.methods.length ≤ methodLimit ∧ ∃ before method after,
        store.methods = before ++ method :: after ∧
        (∀ earlier ∈ before, ∃ bytes,
          (Codec.methodDescriptor store.layout).encode earlier = .ok bytes) ∧
        (Codec.methodDescriptor store.layout).encode method = .error error) := by
  rw [toBytes]
  -- The count is checked first; then the methods, in order, up to the first that fails.
  by_cases hCount : store.methods.length ≤ methodLimit
  · rw [if_pos hCount]
    dsimp only
    rw [header_put store.layout hCount, Output.toExcept_eq_error_iff, Output.failure_append]
    show (Output.concat _).failure = some error ↔ _
    rw [Output.failure_concat, List.findSome?_map, List.findSome?_eq_some_iff]
    simp only [Function.comp_apply, Codec.exists_encode_iff, Codec.encode_eq_error_iff]
    constructor
    · rintro ⟨before, method, after, hMethods, hFails, hBefore⟩
      exact .inr ⟨hCount, before, method, after, hMethods, hBefore, hFails⟩
    · rintro (⟨hMany, -⟩ | ⟨-, before, method, after, hMethods, hBefore, hFails⟩)
      · exact absurd hCount (Nat.not_le.2 hMany)
      · exact ⟨before, method, after, hMethods, hFails, hBefore⟩
  · rw [if_neg hCount]
    constructor
    · rintro ⟨⟩
      exact .inl ⟨Nat.not_le.1 hCount, rfl⟩
    · rintro (⟨-, rfl⟩ | ⟨hFew, -⟩)
      · rfl
      · exact absurd hFew hCount

/-! ## Writers -/

/-- What writing a field adds in this layout: the bytes of its value, or those up to where it
    fails. -/
def Field.added (field : Field) (layout : Layout) : List UInt8 :=
  ((field.shape.codec layout).put field.value).bytes

/-- **What a sequence of writes leaves**: what was there, and behind it what every write adds. -/
theorem Writer.writeAll_snd (writer : Writer) (fields : List Field) :
    (writer.writeAll fields).2 =
      { writer with bytes := writer.bytes ++ fields.flatMap (·.added writer.layout) } := by
  induction fields generalizing writer with
  | nil => rw [writeAll, List.flatMap_nil, List.append_nil]
  | cons field rest ih =>
    rw [writeAll, List.flatMap_cons, ← List.append_assoc]
    exact ih _

/-- **Writing fails exactly when it must.**  A record has bytes if it passes all its checks, and
    otherwise the first check that fails is the reason, in either layout; so it is with any field
    that is written to a writer.  A store has no bytes if its methods cannot be counted, which is
    checked first, or if one of them has no bytes.  A writer keeps the bytes that it has, whether
    the writes that follow fail or not. -/
theorem encode_eq_error_iff_firstFails :
    (∀ (kind : RecordKind) (layout : Layout) (value : kind.Value),
      ((∃ bytes, (kind.codec layout).encode value = .ok bytes) ↔
        ∀ check ∈ kind.checks value, check.Passes layout) ∧
      ∀ error, (kind.codec layout).encode value = .error error ↔
        Check.FirstFails layout (kind.checks value) error) ∧
    (∀ (store : ContractStore) (error : EncodeError), store.toBytes = .error error ↔
      (ContractStore.methodLimit < store.methods.length ∧
        error = .tooManyItems store.methods.length) ∨
      (store.methods.length ≤ ContractStore.methodLimit ∧ ∃ before method after,
        store.methods = before ++ method :: after ∧
        (∀ earlier ∈ before, ∃ bytes,
          (Codec.methodDescriptor store.layout).encode earlier = .ok bytes) ∧
        (Codec.methodDescriptor store.layout).encode method = .error error)) ∧
    ∀ writer : Writer,
      (∀ (shape : Shape) (value : shape.Value) (error : EncodeError),
        (writer.write shape value).1 = some error ↔
          Check.FirstFails writer.layout (shape.checks value) error) ∧
      ∀ fields, (writer.writeAll fields).2 =
        { writer with bytes := writer.bytes ++ fields.flatMap (·.added writer.layout) } := by
  refine ⟨fun kind layout value => ⟨?_, fun error => ?_⟩,
    fun store error => ContractStore.toBytes_eq_error_iff, fun writer => ⟨?_, fun fields => ?_⟩⟩
  · rw [Codec.exists_encode_iff, (kind.checked layout).failure_put, Check.firstError_eq_none_iff]
  · rw [Codec.encode_eq_error_iff, (kind.checked layout).failure_put, Check.firstError_eq_some_iff]
  · intro shape value error
    rw [← Check.firstError_eq_some_iff, ← (shape.checked writer.layout).failure_put]
    rfl
  · exact writer.writeAll_snd fields

/-- The origin of a signature is no optional field, and may be the sentinel in either layout. -/
example : ((RecordKind.callSignature.codec .legacy).encode
    (.blank "m" "R" .isPublic .sentinel)).isOk = true := by
  decide

end Lineage.Wire
