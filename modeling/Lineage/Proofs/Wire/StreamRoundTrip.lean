/-
  What is written to a stream is read back from it.

  Any number of fields of any shapes go through one writer; the reads of the same shapes, in the
  same order and in the same layout, then give the values back, each of them ending where its write
  ended, whatever follows in the stream.

  The proof is one induction on the fields.  Its invariant ties a writer to a reader: the reader
  stands at the length of what was written before, and before it lie the bytes that the remaining
  writes add, followed by the trailing ones (`readAll_of_written`).  One step of it is the
  faithfulness of one format.
-/
import Lineage.Proofs.Wire.Faithful

namespace Lineage.Wire

/-! ## Sequences of writes and of reads -/

/-- A shape, and a value to be written for it. -/
structure Field where
  shape : Shape
  value : shape.Value

/-- What a write came to, and how many bytes there were after it. -/
structure WriteReport where
  failure : Option EncodeError
  length : Nat
  deriving DecidableEq

/-- What a read came to, and where it left off. -/
structure ReadReport where
  shape : Shape
  result : Except DecodeError shape.Value
  position : Nat

/-- Write one field after the other. -/
def Writer.writeAll (writer : Writer) : List Field → List WriteReport × Writer
  | [] => ([], writer)
  | field :: rest =>
    let (failure, next) := writer.write field.shape field.value
    let (reports, last) := next.writeAll rest
    (⟨failure, next.bytes.length⟩ :: reports, last)

/-- Read one field after the other. -/
def Reader.readAll (reader : Reader) : List Shape → List ReadReport × Reader
  | [] => ([], reader)
  | shape :: rest =>
    let (result, next) := reader.read shape
    let (reports, last) := next.readAll rest
    (⟨shape, result, next.cursor.position⟩ :: reports, last)

/-- What the read that mirrors a write has to come to: the value, and the place where the write
    ended. -/
def Field.mirror (field : Field) (report : WriteReport) : ReadReport :=
  ⟨field.shape, .ok field.value, report.length⟩

/-! ## One field -/

/-- A write that does not fail adds the bytes of its value, all of them. -/
theorem Writer.write_of_no_failure {writer : Writer} {shape : Shape} {value : shape.Value}
    (hWritten : (writer.write shape value).1 = none) :
    ∃ bytes, (shape.codec writer.layout).put value = .raw bytes ∧
      writer.write shape value = (none, { writer with bytes := writer.bytes ++ bytes }) := by
  rw [Writer.write, Writer.append] at hWritten ⊢
  cases hPut : (shape.codec writer.layout).put value with
  | mk bytes failure =>
    rw [hPut] at hWritten
    obtain rfl : failure = none := hWritten
    exact ⟨bytes, rfl, rfl⟩

/-- Reading at the bytes of a value gives the value and goes on behind them. -/
theorem Reader.read_of_put {layout : Layout} {shape : Shape} {value : shape.Value}
    {bytes : List UInt8} (hPut : (shape.codec layout).put value = .raw bytes) (position : Nat)
    (rest : List UInt8) :
    (Reader.mk layout ⟨position, bytes ++ rest⟩).read shape =
      (.ok value, ⟨layout, ⟨position + bytes.length, rest⟩⟩) := by
  have hGet : (shape.codec layout).get ⟨position, bytes ++ rest⟩ =
      (.ok value, ⟨position + bytes.length, rest⟩) :=
    ((shape.faithful_codec layout).get_eq_ok_iff_of_put hPut).2 ⟨rfl, rfl⟩
  rw [Reader.read, Reader.step, hGet]

/-! ## The whole stream -/

/-- If no write fails, the writes add some bytes, and reading where these bytes begin mirrors every
    write. -/
theorem readAll_of_written {writer : Writer} {fields : List Field}
    (hWritten : ∀ report ∈ (writer.writeAll fields).1, report.failure = none) :
    ∃ added, (writer.writeAll fields).2 = { writer with bytes := writer.bytes ++ added } ∧
      ∀ trailing, Reader.readAll ⟨writer.layout, ⟨writer.bytes.length, added ++ trailing⟩⟩
          (fields.map Field.shape) =
        (List.zipWith Field.mirror fields (writer.writeAll fields).1,
          ⟨writer.layout, ⟨writer.bytes.length + added.length, trailing⟩⟩) := by
  -- On the fields, for any bytes written before: the reader stands where the writer stood.
  induction fields generalizing writer with
  | nil =>
    refine ⟨[], ?_, fun trailing => rfl⟩
    rw [List.append_nil]
    rfl
  | cons field rest ih =>
    obtain ⟨shape, value⟩ := field
    rw [Writer.writeAll] at hWritten ⊢
    dsimp only at hWritten ⊢
    obtain ⟨hFirst, hOthers⟩ := List.forall_mem_cons.1 hWritten
    obtain ⟨bytes, hPut, hWrite⟩ := Writer.write_of_no_failure hFirst
    rw [hWrite] at hOthers ⊢
    obtain ⟨added, hLast, hRead⟩ := ih hOthers
    refine ⟨bytes ++ added, ?_, fun trailing => ?_⟩
    · rw [hLast, List.append_assoc]
    · have hLength : (writer.bytes ++ bytes).length = writer.bytes.length + bytes.length :=
        List.length_append
      rw [hLength] at hRead
      rw [List.map_cons, List.append_assoc, Reader.readAll, Reader.read_of_put hPut]
      dsimp only
      rw [hRead trailing, List.zipWith_cons_cons, Field.mirror, hLength, List.length_append,
        Nat.add_assoc]

/-- **Streams round-trip.**  If a sequence of writes on a new writer succeeds, then the same
    sequence of reads on its bytes succeeds too, whatever follows them: every read gives the value
    that was written, stops where the write stopped, and the last one leaves what follows.  In
    particular a single record is decoded from its own bytes. -/
theorem readAll_mirrors_writeAll (layout : Layout) (fields : List Field) (trailing : List UInt8)
    (hWritten : ∀ report ∈ (Writer.writeAll { layout } fields).1, report.failure = none) :
    Reader.readAll
        (.ofBytes layout ((Writer.writeAll { layout } fields).2.bytes ++ trailing))
        (fields.map Field.shape) =
      (List.zipWith Field.mirror fields (Writer.writeAll { layout } fields).1,
        ⟨layout, ⟨(Writer.writeAll { layout } fields).2.bytes.length, trailing⟩⟩) ∧
    ∀ (kind : RecordKind) (value : kind.Value) (bytes : List UInt8),
      (kind.codec layout).encode value = .ok bytes →
        (kind.codec layout).decode bytes = .ok value := by
  refine ⟨?_, fun kind value bytes hEncode => ?_⟩
  · obtain ⟨added, hLast, hRead⟩ := readAll_of_written hWritten
    rw [hLast]
    simpa [Reader.ofBytes, Cursor.ofBytes] using hRead trailing
  · exact (kind.faithful_codec layout).decode_eq_ok_iff.2 hEncode

/-- A stream with numbers at their limits, absent fields, and a signature whose result and locality
    differ from the defaults. -/
def mixedFields : List Field := [
  ⟨.u16, 0xFFFE⟩, ⟨.i32, -2⟩, ⟨.bool, true⟩, ⟨.text, "é"⟩, ⟨.texts, ["", "a"]⟩,
  ⟨.optional .location, none⟩,
  ⟨.records .callSignature, [{
    methodName := "m", receiverName := "R", visibility := .isProtected,
    parameters := [⟨"p", .keyRest⟩], argumentTypes := ["T"], origin := ⟨"", ""⟩,
    returnType := "U", isLocal := true }]⟩,
  ⟨.record .methodDescriptor, ⟨⟨"A::B", none⟩, "x", .isPrivate, some ⟨"a.rb", -1⟩⟩⟩]

theorem readAll_mirrors_writeAll_mixedFields :
    (∀ report ∈ (Writer.writeAll { layout := .legacy } mixedFields).1, report.failure = none) ∧
    Reader.readAll
        (.ofBytes .legacy ((Writer.writeAll { layout := .legacy } mixedFields).2.bytes ++ [7]))
        (mixedFields.map Field.shape) =
      (List.zipWith Field.mirror mixedFields (Writer.writeAll { layout := .legacy } mixedFields).1,
        ⟨.legacy, ⟨(Writer.writeAll { layout := .legacy } mixedFields).2.bytes.length, [7]⟩⟩) := by
  have hWritten :
      ∀ report ∈ (Writer.writeAll { layout := .legacy } mixedFields).1, report.failure = none := by
    decide +kernel
  exact ⟨hWritten, (readAll_mirrors_writeAll .legacy mixedFields [7] hWritten).1⟩

end Lineage.Wire
