/-
  Moving records from one layout to the other loses nothing.

  The layouts differ in the optional fields only.  Whatever the legacy layout can write the tagged
  one can write too; the other way round there is one thing in the way, a field that is present and
  equal to its sentinel, which the legacy layout would read back as absent and therefore refuses.

  `Migrates` states this of two formats of a type, one for each layout, and of the optional fields
  that the values of the type have.  It says nothing about bytes, only which writes fail and why, so
  it composes along the fields of a record: of several fields that are refused the first one is
  reported.  That the value itself survives is the faithfulness of both formats.
-/
import Lineage.Proofs.Wire.Faithful

namespace Lineage.Wire

variable {α β : Type}

/-! ## Optional fields -/

/-- An optional field of a record, and what it holds. -/
structure OptionalField where
  kind : OptionalKind
  value : Option kind.Value

namespace OptionalField

/-- Is the field present and equal to its sentinel? -/
def holdsSentinel : OptionalField → Bool
  | ⟨.location, value⟩ => value = some Location.sentinel
  | ⟨.libraryOrigin, value⟩ => value = some LibraryOrigin.sentinel

/-- The first field that is present and equal to its sentinel. -/
def firstSentinel (fields : List OptionalField) : Option OptionalField :=
  fields.find? (·.holdsSentinel)

/-- Why the legacy layout refuses fields like these. -/
def refusal (fields : List OptionalField) : Option EncodeError :=
  (firstSentinel fields).map fun field => .ambiguousSentinel field.kind

theorem refusal_append (fields more : List OptionalField) :
    refusal (fields ++ more) = (refusal fields).or (refusal more) := by
  rw [refusal, firstSentinel, List.find?_append, Option.map_or]
  rfl

theorem refusal_singleton (field : OptionalField) :
    refusal [field] =
      if field.holdsSentinel = true then some (.ambiguousSentinel field.kind) else none := by
  rw [refusal, firstSentinel, List.find?_singleton]
  split <;> rfl

theorem refusal_eq_none_iff {fields : List OptionalField} :
    refusal fields = none ↔ ∀ field ∈ fields, field.holdsSentinel = false := by
  simp [refusal, firstSentinel]

theorem exists_refusal_iff {fields : List OptionalField} :
    (∃ error, refusal fields = some error) ↔ ∃ field ∈ fields, field.holdsSentinel = true := by
  rw [← Option.ne_none_iff_exists', ne_eq, refusal_eq_none_iff]
  simp

end OptionalField

/-- The optional fields of a record, in the order in which they are written. -/
def RecordKind.optionalFields : (kind : RecordKind) → kind.Value → List OptionalField
  | .classDescriptor, c => [⟨.libraryOrigin, c.origin⟩]
  | .methodDescriptor, m => [⟨.libraryOrigin, m.owner.origin⟩, ⟨.location, m.location⟩]
  | _, _ => []

/-! ## Which writes fail -/

theorem Output.failure_append (a b : Output) : (a ++ b).failure = a.failure.or b.failure := by
  obtain ⟨x, failure⟩ := a
  cases failure <;> rfl

namespace Codec

theorem encode_eq_error_iff {codec : Codec α} {value : α} {error : EncodeError} :
    codec.encode value = .error error ↔ (codec.put value).failure = some error := by
  rw [encode, Output.toExcept]
  cases (codec.put value).failure <;> simp

theorem exists_encode_iff {codec : Codec α} {value : α} :
    (∃ bytes, codec.encode value = .ok bytes) ↔ (codec.put value).failure = none := by
  rw [encode, Output.toExcept]
  cases (codec.put value).failure <;> simp

open OptionalField

/-- Two formats of one type, in the legacy and in the tagged layout: the tagged one writes whatever
    the legacy one does, and the legacy one refuses only a field that holds its sentinel. -/
structure Migrates (legacy tagged : Codec α) (fields : α → List OptionalField) : Prop where
  tagged_of_legacy : ∀ {value : α}, (legacy.put value).failure = none →
    (tagged.put value).failure = none
  legacy_of_tagged : ∀ {value : α}, (tagged.put value).failure = none →
    (legacy.put value).failure = refusal (fields value)

/-- A format that does not depend on the layout refuses nothing more. -/
theorem migrates_refl (codec : Codec α) : Migrates codec codec fun _ => [] :=
  ⟨fun hPut => hPut, fun hPut => hPut⟩

/-- Two fields migrate if both of them do, the refusals of the first in front. -/
theorem Migrates.pair {legacy tagged : Codec α} {fields : α → List OptionalField}
    {legacy' tagged' : Codec β} {fields' : β → List OptionalField}
    (hFirst : Migrates legacy tagged fields) (hSecond : Migrates legacy' tagged' fields') :
    Migrates (legacy.pair legacy') (tagged.pair tagged')
      fun value => fields value.1 ++ fields' value.2 where
  tagged_of_legacy := by
    intro value hPut
    simp only [Codec.pair, Output.failure_append, Option.or_eq_none_iff] at hPut ⊢
    exact ⟨hFirst.tagged_of_legacy hPut.1, hSecond.tagged_of_legacy hPut.2⟩
  legacy_of_tagged := by
    intro value hPut
    simp only [Codec.pair, Output.failure_append, Option.or_eq_none_iff] at hPut ⊢
    rw [hFirst.legacy_of_tagged hPut.1, hSecond.legacy_of_tagged hPut.2, refusal_append]

theorem Migrates.iso {legacy tagged : Codec α} {fields : α → List OptionalField}
    (hCodec : Migrates legacy tagged fields) (pack : α → β) (unpack : β → α) :
    Migrates (legacy.iso pack unpack) (tagged.iso pack unpack) fun value => fields (unpack value) :=
  ⟨hCodec.tagged_of_legacy, hCodec.legacy_of_tagged⟩

section

variable [DecidableEq α] [HasSentinel α]

/-- The legacy layout refuses a field that is present and equal to the sentinel. -/
theorem failure_orSentinel_sentinel (codec : Codec α) :
    (codec.orSentinel.put (some HasSentinel.sentinel)).failure =
      some (.ambiguousSentinel (HasSentinel.kind α)) := by
  rw [orSentinel]
  dsimp only
  rw [if_pos rfl]
  rfl

/-- The legacy layout writes every other field as it is. -/
theorem failure_orSentinel_of_ne (codec : Codec α) {present : α}
    (hPresent : present ≠ HasSentinel.sentinel) :
    (codec.orSentinel.put (some present)).failure = (codec.put present).failure := by
  rw [orSentinel]
  dsimp only
  rw [if_neg hPresent]

omit [DecidableEq α] [HasSentinel α] in
theorem failure_tagged_some (codec : Codec α) (present : α) :
    (codec.tagged.put (some present)).failure = (codec.put present).failure := by
  rw [tagged, Output.failure_append]
  rfl

/-- **An optional field** is refused by the legacy layout if it holds its sentinel, and for no other
    reason, since the sentinel itself can be written. -/
theorem migrates_optional {codec : Codec α}
    (hSentinel : (codec.put HasSentinel.sentinel).failure = none) {field : Option α → OptionalField}
    (hKind : ∀ value, (field value).kind = HasSentinel.kind α)
    (hHolds : ∀ value,
      (field value).holdsSentinel = decide (value = some HasSentinel.sentinel)) :
    Migrates (codec.optional .legacy) (codec.optional .tagged) fun value => [field value] where
  tagged_of_legacy := by
    intro value hPut
    change (codec.orSentinel.put value).failure = none at hPut
    cases value with
    | none => rfl
    | some present =>
      -- The two layouts disagree about one present field only, the one that equals the sentinel.
      by_cases hPresent : present = HasSentinel.sentinel
      · rw [hPresent, failure_orSentinel_sentinel] at hPut
        cases hPut
      · rw [failure_orSentinel_of_ne codec hPresent] at hPut
        exact (failure_tagged_some codec present).trans hPut
  legacy_of_tagged := by
    intro value hPut
    change (codec.tagged.put value).failure = none at hPut
    change (codec.orSentinel.put value).failure = _
    rw [refusal_singleton, hHolds, hKind]
    cases value with
    | none => exact hSentinel
    | some present =>
      by_cases hPresent : present = HasSentinel.sentinel
      · rw [hPresent, if_pos (decide_eq_true rfl), failure_orSentinel_sentinel]
      · rw [if_neg (by simpa using hPresent), failure_orSentinel_of_ne codec hPresent,
          ← failure_tagged_some, hPut]

end

theorem migrates_origin : Migrates (libraryOrigin.optional .legacy) (libraryOrigin.optional .tagged)
    fun value => [⟨.libraryOrigin, value⟩] :=
  migrates_optional (by decide) (fun _ => rfl) fun _ => rfl

theorem migrates_location : Migrates (location.optional .legacy) (location.optional .tagged)
    fun value => [⟨.location, value⟩] :=
  migrates_optional (by decide) (fun _ => rfl) fun _ => rfl

theorem migrates_classDescriptor : Migrates (classDescriptor .legacy) (classDescriptor .tagged)
    (RecordKind.optionalFields .classDescriptor) :=
  ((migrates_refl text).pair migrates_origin).iso _ _

theorem migrates_methodDescriptor : Migrates (methodDescriptor .legacy) (methodDescriptor .tagged)
    (RecordKind.optionalFields .methodDescriptor) :=
  (migrates_classDescriptor.pair <| (migrates_refl text).pair <| (migrates_refl visibility).pair
    migrates_location).iso _ _

end Codec

/-- Every record migrates unless one of its optional fields is a sentinel. -/
theorem RecordKind.migrates : (kind : RecordKind) →
    Codec.Migrates (kind.codec .legacy) (kind.codec .tagged) kind.optionalFields
  | .classDescriptor => Codec.migrates_classDescriptor
  | .methodDescriptor => Codec.migrates_methodDescriptor
  | .location | .libraryOrigin | .visibility | .parameterKind | .parameterInfo | .callSignature
  | .ancestorRecord => Codec.migrates_refl _

/-- Without optional fields there is one format for both layouts. -/
theorem RecordKind.codec_eq_of_no_optionalFields {kind : RecordKind}
    (hNone : ∀ value, kind.optionalFields value = []) (layout layout' : Layout) :
    kind.codec layout = kind.codec layout' := by
  cases kind with
  | classDescriptor => cases hNone ⟨"", none⟩
  | methodDescriptor => cases hNone ⟨⟨"", none⟩, "", .isPublic, none⟩
  | _ => rfl

/-! ## There and back -/

variable {kind : RecordKind} {layout : Layout} {bytes : List UInt8} {value : kind.Value}

/-- Records are decoded from what they are encoded as. -/
theorem RecordKind.decode_eq_ok_iff :
    (kind.codec layout).decode bytes = .ok value ↔ (kind.codec layout).encode value = .ok bytes :=
  (kind.faithful_codec layout).decode_eq_ok_iff

/-- Bytes that are accepted are moved by writing what they hold in the other layout. -/
theorem transcode_of_decode (hDecode : (kind.codec layout).decode bytes = .ok value) :
    transcode layout kind bytes = .ok ((kind.codec layout.other).encode value) := by
  rw [transcode, hDecode]
  rfl

/-- What the other layout can write too is moved there, holds the same record there, and is moved
    back to the bytes it came from. -/
theorem transcode_there_and_back (hDecode : (kind.codec layout).decode bytes = .ok value)
    (hOther : ((kind.codec layout.other).put value).failure = none) :
    ∃ moved, transcode layout kind bytes = .ok (.ok moved) ∧
      (kind.codec layout.other).decode moved = .ok value ∧
      transcode layout.other kind moved = .ok (.ok bytes) := by
  obtain ⟨moved, hMoved⟩ := Codec.exists_encode_iff.2 hOther
  have hSame : (kind.codec layout.other).decode moved = .ok value :=
    RecordKind.decode_eq_ok_iff.2 hMoved
  have hBack : layout.other.other = layout := by cases layout <;> rfl
  refine ⟨moved, ?_, hSame, ?_⟩
  · rw [transcode_of_decode hDecode, hMoved]
  · rw [transcode_of_decode hSame, hBack, RecordKind.decode_eq_ok_iff.1 hDecode]

/-- **Migration loses nothing.**  From the legacy layout every record moves to the tagged one, and
    back to the same bytes.  From the tagged layout a record is refused exactly if one of its
    optional fields is present and equal to its sentinel, and then by the kind of the first such
    field; every other record moves to the legacy layout as the same record, and back to the same
    bytes.  Records without optional fields have the same bytes in both layouts. -/
theorem RecordKind.transcode_lossless (kind : RecordKind) :
    (∀ bytes value, (kind.codec .legacy).decode bytes = .ok value →
      ∃ moved, transcode .legacy kind bytes = .ok (.ok moved) ∧
        (kind.codec .tagged).decode moved = .ok value ∧
        transcode .tagged kind moved = .ok (.ok bytes)) ∧
    (∀ bytes value, (kind.codec .tagged).decode bytes = .ok value →
      ((∃ error, transcode .tagged kind bytes = .ok (.error error)) ↔
        ∃ field ∈ kind.optionalFields value, field.holdsSentinel = true) ∧
      (∀ error, transcode .tagged kind bytes = .ok (.error error) →
        ∃ field, (kind.optionalFields value).find? (·.holdsSentinel) = some field ∧
          error = .ambiguousSentinel field.kind) ∧
      ((∀ field ∈ kind.optionalFields value, field.holdsSentinel = false) →
        ∃ moved, transcode .tagged kind bytes = .ok (.ok moved) ∧
          (kind.codec .legacy).decode moved = .ok value ∧
          transcode .legacy kind moved = .ok (.ok bytes))) ∧
    ((∀ value, kind.optionalFields value = []) →
      ∀ layout bytes value, (kind.codec layout).decode bytes = .ok value →
        transcode layout kind bytes = .ok (.ok bytes)) := by
  refine ⟨fun bytes value hDecode => ?_, fun bytes value hDecode => ?_, fun hNone layout bytes value
    hDecode => ?_⟩
  · have hPut := Codec.exists_encode_iff.1 ⟨bytes, decode_eq_ok_iff.1 hDecode⟩
    exact transcode_there_and_back hDecode (kind.migrates.tagged_of_legacy hPut)
  · have hPut := Codec.exists_encode_iff.1 ⟨bytes, decode_eq_ok_iff.1 hDecode⟩
    have hLegacy := kind.migrates.legacy_of_tagged hPut
    -- Of a tagged record the legacy layout refuses what `refusal` finds, and nothing else.
    have hError : ∀ error, transcode .tagged kind bytes = .ok (.error error) ↔
        OptionalField.refusal (kind.optionalFields value) = some error := by
      intro error
      rw [transcode_of_decode hDecode, Except.ok.injEq, ← hLegacy]
      exact Codec.encode_eq_error_iff
    refine ⟨?_, ?_, ?_⟩
    · simp only [hError]
      exact OptionalField.exists_refusal_iff
    · intro error hRefused
      obtain ⟨field, hFirst, rfl⟩ := Option.map_eq_some_iff.1 ((hError error).1 hRefused)
      exact ⟨field, hFirst, rfl⟩
    · intro hFree
      rw [OptionalField.refusal_eq_none_iff.2 hFree] at hLegacy
      exact transcode_there_and_back hDecode hLegacy
  · rw [transcode_of_decode hDecode, codec_eq_of_no_optionalFields hNone layout.other layout,
      decode_eq_ok_iff.1 hDecode]

/-- A class whose origin is present, with two empty texts, is refused by the legacy layout. -/
example : transcode .tagged .classDescriptor [0, 1, 65, 1, 0, 0, 0, 0] =
    .ok (.error (.ambiguousSentinel .libraryOrigin)) := rfl

end Lineage.Wire
