/-
  Reading accepts exactly what writing produces.

  A codec is FAITHFUL if reading from one cursor yields a value and another cursor exactly when what
  writing this value produces lies between the two.  From right to left that is the round trip, in
  front of any bytes that may follow; from left to right it says that no value has a second
  spelling.

  The law is an equivalence, so it composes: a pair is faithful because its parts are, and a record
  because its fields are.  The crux are two inversions that run in parallel, of a sequence of reads
  (`bind_eq_ok_iff`) and of a sequence of writes (`liesBetween_append_iff`): both stop at a cursor
  in between, and every constructor of codecs only has to match the two up.
-/
import Lineage.Wire.Records
import Lineage.Wire.Stream

namespace Lineage.Wire

/-! ## The way from one cursor to another -/

/-- `after` is reached from `before` by going over exactly `bytes`. -/
structure Cursor.Spans (before : Cursor) (bytes : List UInt8) (after : Cursor) : Prop where
  rest : before.rest = bytes ++ after.rest
  position : after.position = before.position + bytes.length

namespace Cursor

/-- No bytes lie between a cursor and itself only. -/
theorem spans_nil_iff {before after : Cursor} : before.Spans [] after ↔ after = before := by
  constructor
  · rintro ⟨hRest, hPosition⟩
    obtain ⟨position, rest⟩ := after
    obtain rfl : position = before.position := hPosition
    obtain rfl : before.rest = rest := hRest
    rfl
  · rintro rfl
    exact ⟨rfl, rfl⟩

/-- Going over `x ++ y` means going over `x`, to a cursor in between, and from there over `y`. -/
theorem spans_append_iff {before after : Cursor} {x y : List UInt8} :
    before.Spans (x ++ y) after ↔ ∃ middle, before.Spans x middle ∧ middle.Spans y after := by
  constructor
  · rintro ⟨hRest, hPosition⟩
    rw [List.append_assoc] at hRest
    rw [List.length_append] at hPosition
    refine ⟨⟨before.position + x.length, y ++ after.rest⟩, ⟨hRest, rfl⟩, ⟨rfl, ?_⟩⟩
    show after.position = before.position + x.length + y.length
    omega
  · rintro ⟨middle, ⟨hRest, hPosition⟩, ⟨hRest', hPosition'⟩⟩
    refine ⟨?_, ?_⟩
    · rw [hRest, hRest', List.append_assoc]
    · rw [hPosition', hPosition, List.length_append]
      omega

/-- From the start of a sequence to the end of it: over all of it. -/
theorem ofBytes_spans_end_iff {bytes spanned : List UInt8} {after : Cursor}
    (hEnd : after.rest = []) :
    (ofBytes bytes).Spans spanned after ↔ spanned = bytes ∧ after = ⟨bytes.length, []⟩ := by
  constructor
  · rintro ⟨hRest, hPosition⟩
    obtain ⟨position, rest⟩ := after
    obtain rfl : rest = [] := hEnd
    have hSpanned : bytes = spanned := by simpa [ofBytes] using hRest
    refine ⟨hSpanned.symm, ?_⟩
    rw [hSpanned]
    exact congrArg (Cursor.mk · []) (by simpa [ofBytes] using hPosition)
  · rintro ⟨rfl, rfl⟩
    exact ⟨by simp [ofBytes], by simp [ofBytes]⟩

end Cursor

/-! ## Inversions of reading -/

namespace Read

variable {α β : Type} {before after : Cursor}

theorem pure_eq_ok_iff {value result : α} :
    (Pure.pure value : Read α) before = (.ok result, after) ↔ result = value ∧ after = before := by
  constructor
  · intro h
    cases h
    exact ⟨rfl, rfl⟩
  · rintro ⟨rfl, rfl⟩
    rfl

theorem fail_ne_ok {error : DecodeError} {result : α} :
    (Read.fail error : Read α) before ≠ (.ok result, after) := by
  intro h
  cases h

/-- A sequence of two steps succeeds through a first result and a cursor in between. -/
theorem bind_eq_ok_iff {step : Read α} {next : α → Read β} {result : β} :
    (step >>= next) before = (.ok result, after) ↔
      ∃ value middle, step before = (.ok value, middle) ∧
        next value middle = (.ok result, after) := by
  show Read.bind step next before = _ ↔ _
  rw [Read.bind]
  cases hStep : step before with
  | mk outcome middle =>
    cases outcome with
    | ok value =>
      constructor
      · intro h
        exact ⟨value, middle, rfl, h⟩
      · rintro ⟨value', middle', hEq, h⟩
        cases hEq
        exact h
    | error e =>
      -- The first step has failed, and no result of it could be handed on.
      constructor
      · intro h
        cases h
      · rintro ⟨value, middle', hEq, -⟩
        cases hEq

/-- Reading so many bytes succeeds with those that come next. -/
theorem slice_eq_ok_iff {count : Nat} {bytes : List UInt8} :
    Read.slice count before = (.ok bytes, after) ↔
      bytes.length = count ∧ before.Spans bytes after := by
  rw [Read.slice, List.splitAt_eq]
  dsimp only
  constructor
  · intro h
    split at h
    · rename_i hLength
      cases h
      exact ⟨hLength, (List.take_append_drop count before.rest).symm, by rw [hLength]⟩
    · cases h
  · rintro ⟨rfl, hRest, hPosition⟩
    have hTake : before.rest.take bytes.length = bytes := by rw [hRest, List.take_left]
    have hDrop : before.rest.drop bytes.length = after.rest := by rw [hRest, List.drop_left]
    rw [hTake, hDrop, if_pos rfl, ← hPosition]

theorem expectEnd_eq_ok_iff {result : Unit} :
    Read.expectEnd before = (.ok result, after) ↔ after = before ∧ before.rest = [] := by
  rw [Read.expectEnd, Cursor.remaining]
  cases hRest : before.rest with
  | nil => simp [eq_comm]
  | cons byte rest => simp

end Read

/-! ## Inversions of writing -/

/-- An output is complete, and its bytes are those between two cursors. -/
def Output.LiesBetween (output : Output) (before after : Cursor) : Prop :=
  ∃ bytes, output = .raw bytes ∧ before.Spans bytes after

namespace Output

theorem raw_inj {a b : List UInt8} : raw a = raw b ↔ a = b := by simp [raw]

theorem fail_ne_raw {error : EncodeError} {bytes : List UInt8} : fail error ≠ raw bytes := by
  simp [fail, raw]

/-- Two outputs make up complete bytes if both are complete. -/
theorem append_eq_raw_iff {a b : Output} {bytes : List UInt8} :
    a ++ b = raw bytes ↔ ∃ x y, a = raw x ∧ b = raw y ∧ bytes = x ++ y := by
  obtain ⟨x, failure⟩ := a
  obtain ⟨y, failure'⟩ := b
  cases failure with
  | none =>
    constructor
    · intro h
      cases h
      exact ⟨x, y, rfl, rfl, rfl⟩
    · rintro ⟨x', y', hx, hy, rfl⟩
      cases hx
      cases hy
      rfl
  | some error =>
    constructor
    · intro h
      cases h
    · rintro ⟨x', y', hx, -, -⟩
      cases hx

theorem raw_append_raw (a b : List UInt8) : raw a ++ raw b = raw (a ++ b) := rfl

theorem liesBetween_raw_iff {bytes : List UInt8} {before after : Cursor} :
    (raw bytes).LiesBetween before after ↔ before.Spans bytes after := by
  constructor
  · rintro ⟨written, hWritten, hSpans⟩
    rwa [raw_inj.1 hWritten]
  · intro hSpans
    exact ⟨bytes, rfl, hSpans⟩

theorem not_liesBetween_fail {error : EncodeError} {before after : Cursor} :
    ¬ (fail error).LiesBetween before after := by
  rintro ⟨bytes, hRaw, -⟩
  exact fail_ne_raw hRaw

/-- Two outputs lie one after the other, with a cursor in between. -/
theorem liesBetween_append_iff {a b : Output} {before after : Cursor} :
    (a ++ b).LiesBetween before after ↔
      ∃ middle, a.LiesBetween before middle ∧ b.LiesBetween middle after := by
  constructor
  · rintro ⟨bytes, hRaw, hSpans⟩
    obtain ⟨x, y, hx, hy, rfl⟩ := append_eq_raw_iff.1 hRaw
    obtain ⟨middle, hFirst, hSecond⟩ := Cursor.spans_append_iff.1 hSpans
    exact ⟨middle, ⟨x, hx, hFirst⟩, ⟨y, hy, hSecond⟩⟩
  · rintro ⟨middle, ⟨x, hx, hFirst⟩, ⟨y, hy, hSecond⟩⟩
    refine ⟨x ++ y, ?_, Cursor.spans_append_iff.2 ⟨middle, hFirst, hSecond⟩⟩
    rw [hx, hy, raw_append_raw]

theorem toExcept_eq_ok_iff {output : Output} {bytes : List UInt8} :
    output.toExcept = .ok bytes ↔ output = raw bytes := by
  obtain ⟨written, failure⟩ := output
  cases failure <;> simp [toExcept, raw]

end Output

/-! ## Faithful codecs -/

namespace Codec

variable {α β : Type}

/-- **Reading and writing mean the same**: a value is read from one cursor to another where what
    writing it produces lies between the two. -/
structure Faithful (codec : Codec α) : Prop where
  get_eq_ok_iff : ∀ {before after : Cursor} {value : α},
    codec.get before = (.ok value, after) ↔ (codec.put value).LiesBetween before after

/-- A value that has bytes is read where these bytes are, and nowhere else. -/
theorem Faithful.get_eq_ok_iff_of_put {codec : Codec α} (hCodec : codec.Faithful)
    {before after : Cursor} {value : α} {bytes : List UInt8} (hPut : codec.put value = .raw bytes) :
    codec.get before = (.ok value, after) ↔ before.Spans bytes after := by
  rw [hCodec.get_eq_ok_iff, hPut, Output.liesBetween_raw_iff]

/-- **Decoding is the inverse of encoding**, in both directions. -/
theorem Faithful.decode_eq_ok_iff {codec : Codec α} (hCodec : codec.Faithful) {bytes : List UInt8}
    {value : α} : codec.decode bytes = .ok value ↔ codec.encode value = .ok bytes := by
  -- Decoding is reading, from the start, up to the end, of what `hCodec` says was written.
  have hExactly : codec.decode bytes = .ok value ↔
      ∃ after, codec.exactly (.ofBytes bytes) = (.ok value, after) := by
    rw [decode]
    cases codec.exactly (.ofBytes bytes) with
    | mk outcome after => simp
  have hGet : ∀ after, codec.exactly (.ofBytes bytes) = (.ok value, after) ↔
      codec.get (.ofBytes bytes) = (.ok value, after) ∧ after.rest = [] := by
    intro after
    simp only [exactly, Read.bind_eq_ok_iff, Read.pure_eq_ok_iff, Read.expectEnd_eq_ok_iff]
    constructor
    · rintro ⟨value', middle, hRead, -, end', ⟨rfl, hEnd⟩, rfl, rfl⟩
      exact ⟨hRead, hEnd⟩
    · rintro ⟨hValue, hEnd⟩
      exact ⟨value, after, hValue, (), after, ⟨rfl, hEnd⟩, rfl, rfl⟩
  rw [hExactly, encode, Output.toExcept_eq_ok_iff]
  constructor
  · rintro ⟨after, hAfter⟩
    obtain ⟨hValue, hEnd⟩ := (hGet after).1 hAfter
    obtain ⟨written, hPut, hSpans⟩ := hCodec.get_eq_ok_iff.1 hValue
    rw [hPut, ((Cursor.ofBytes_spans_end_iff hEnd).1 hSpans).1]
  · intro hPut
    refine ⟨⟨bytes.length, []⟩, (hGet _).2 ⟨hCodec.get_eq_ok_iff.2 ⟨bytes, hPut, ?_⟩, rfl⟩⟩
    exact (Cursor.ofBytes_spans_end_iff rfl).2 ⟨rfl, rfl⟩

/-! ### Numbers -/

/-- A number is faithful if its type has exactly the values that its width can hold. -/
theorem faithful_number {width : Nat} {toNat : α → Nat} {ofNat : Nat → α}
    (hLimit : ∀ value, toNat value < BigEndian.limit width)
    (hValue : ∀ value, ofNat (toNat value) = value)
    (hNumber : ∀ n, n < BigEndian.limit width → toNat (ofNat n) = n) :
    (number width toNat ofNat).Faithful := by
  refine ⟨fun {before after value} => ?_⟩
  simp only [number, Read.bind_eq_ok_iff, Read.pure_eq_ok_iff, Read.slice_eq_ok_iff,
    Output.liesBetween_raw_iff]
  constructor
  · rintro ⟨bytes, middle, ⟨hLength, hSpans⟩, rfl, rfl⟩
    have hBelow : BigEndian.ofBytes bytes < BigEndian.limit width :=
      hLength ▸ BigEndian.ofBytes_lt_limit bytes
    rw [hNumber _ hBelow, ← hLength, BigEndian.toBytes_ofBytes]
    exact hSpans
  · intro hSpans
    refine ⟨_, after, ⟨BigEndian.length_toBytes width (toNat value), hSpans⟩, ?_, rfl⟩
    rw [BigEndian.ofBytes_toBytes, Nat.mod_eq_of_lt (hLimit value), hValue]

theorem faithful_u8 : u8.Faithful :=
  faithful_number UInt8.toNat_lt (fun _ => UInt8.ofNat_toNat)
    (fun n (hBelow : n < UInt8.size) => UInt8.toNat_ofNat_of_lt' hBelow)

theorem faithful_u16 : u16.Faithful :=
  faithful_number UInt16.toNat_lt (fun _ => UInt16.ofNat_toNat)
    (fun n (hBelow : n < UInt16.size) => UInt16.toNat_ofNat_of_lt' hBelow)

theorem faithful_u32 : u32.Faithful :=
  faithful_number UInt32.toNat_lt (fun _ => UInt32.ofNat_toNat)
    (fun n (hBelow : n < UInt32.size) => UInt32.toNat_ofNat_of_lt' hBelow)

/-- Every four bytes are a signed number in two's complement. -/
theorem faithful_i32 : i32.Faithful := by
  refine faithful_number (fun value => value.toUInt32.toNat_lt) (fun value => ?_)
    (fun n hBelow => ?_)
  · rw [UInt32.ofNat_toNat]
    exact Int32.toInt32_toUInt32 value
  · rw [UInt32.toUInt32_toInt32]
    exact UInt32.toNat_ofNat_of_lt' hBelow

/-- A value with a byte of its own is faithful if no other byte stands for it. -/
theorem faithful_ordinal {toByte : α → UInt8} {ofByte? : UInt8 → Option α}
    {refuse : UInt8 → DecodeError} (hByte : ∀ value, ofByte? (toByte value) = some value)
    (hOnly : ∀ byte value, ofByte? byte = some value → toByte value = byte) :
    (ordinal toByte ofByte? refuse).Faithful := by
  refine ⟨fun {before after value} => ?_⟩
  simp only [ordinal, Read.bind_eq_ok_iff, faithful_u8.get_eq_ok_iff]
  constructor
  · rintro ⟨byte, middle, hWritten, hResult⟩
    -- A byte that stands for nothing is refused; any other is the one that would be written.
    cases hByte' : ofByte? byte with
    | none =>
      rw [hByte'] at hResult
      exact absurd hResult Read.fail_ne_ok
    | some found =>
      rw [hByte'] at hResult
      obtain ⟨rfl, rfl⟩ := Read.pure_eq_ok_iff.1 hResult
      rw [hOnly byte value hByte']
      exact hWritten
  · intro hWritten
    refine ⟨toByte value, after, hWritten, ?_⟩
    rw [hByte value]
    exact Read.pure_eq_ok_iff.2 ⟨rfl, rfl⟩

theorem faithful_bool : bool.Faithful := by
  refine faithful_ordinal (fun value => ?_) (fun byte value hByte => ?_)
  · cases value <;> rfl
  · unfold boolOfByte? at hByte
    split at hByte <;> cases hByte <;> rfl

/-! ### Texts and lists -/

/-- What is preceded by its size is written if two bytes hold the size. -/
theorem counted_liesBetween_iff {size : Nat} {body : Output} {error : EncodeError}
    {before after : Cursor} :
    (if size ≤ countLimit then u16.put (.ofNat size) ++ body else .fail error).LiesBetween
        before after ↔
      ∃ count middle, (u16.put count).LiesBetween before middle ∧ size = count.toNat ∧
        body.LiesBetween middle after := by
  constructor
  · intro hCounted
    -- The count is written in two bytes, so it can be read back only if it fits into them.
    by_cases hFits : size ≤ countLimit
    · rw [if_pos hFits] at hCounted
      obtain ⟨middle, hCount, hBody⟩ := Output.liesBetween_append_iff.1 hCounted
      refine ⟨.ofNat size, middle, hCount, (UInt16.toNat_ofNat_of_lt' ?_).symm, hBody⟩
      rw [countLimit] at hFits
      show size < 65536
      omega
    · rw [if_neg hFits] at hCounted
      exact absurd hCounted Output.not_liesBetween_fail
  · rintro ⟨count, middle, hCount, rfl, hBody⟩
    have hFits : count.toNat ≤ countLimit := by
      have hBelow : count.toNat < 65536 := count.toNat_lt
      show count.toNat ≤ 65535
      omega
    rw [if_pos hFits, UInt16.ofNat_toNat]
    exact Output.liesBetween_append_iff.2 ⟨middle, hCount, hBody⟩

/-- A text is faithful: its length and its bytes are read back. -/
theorem faithful_text : text.Faithful := by
  refine ⟨fun {before after value} => ?_⟩
  simp only [text, Read.bind_eq_ok_iff, faithful_u16.get_eq_ok_iff, Read.slice_eq_ok_iff,
    counted_liesBetween_iff, Output.liesBetween_raw_iff]
  constructor
  · rintro ⟨count, middle, hCount, bytes, last, ⟨hLength, hSpans⟩, hResult⟩
    cases hDecode : Utf8.decode? bytes with
    | none =>
      rw [hDecode] at hResult
      exact absurd hResult Read.fail_ne_ok
    | some decoded =>
      rw [hDecode] at hResult
      obtain ⟨rfl, rfl⟩ := Read.pure_eq_ok_iff.1 hResult
      -- Bytes that decode to a text are its encoding, so their number is its size.
      obtain rfl := Utf8.eq_encode_of_decode? hDecode
      exact ⟨count, middle, hCount, (Utf8.length_encode value).symm.trans hLength, hSpans⟩
  · rintro ⟨count, middle, hCount, hLength, hSpans⟩
    refine ⟨count, middle, hCount, Utf8.encode value, after, ⟨?_, hSpans⟩, ?_⟩
    · rw [Utf8.length_encode, hLength]
    · rw [Utf8.decode?_encode]
      exact Read.pure_eq_ok_iff.2 ⟨rfl, rfl⟩

/-- Reading a value a number of times reads what writing as many values produces. -/
theorem Faithful.times_eq_ok_iff {item : Codec α} (hItem : item.Faithful) {count : Nat}
    {before after : Cursor} {values : List α} :
    item.get.times count before = (.ok values, after) ↔
      values.length = count ∧
        (Output.concat (values.map item.put)).LiesBetween before after := by
  -- On the count: the first item lies before a cursor, and the others between that and the end.
  induction count generalizing before after values with
  | zero =>
    rw [Read.times_zero]
    constructor
    · intro h
      cases h
      exact ⟨rfl, [], rfl, Cursor.spans_nil_iff.2 rfl⟩
    · rintro ⟨hLength, hNothing⟩
      obtain rfl := List.length_eq_zero_iff.1 hLength
      have hSpans : before.Spans [] after := Output.liesBetween_raw_iff.1 hNothing
      obtain rfl := Cursor.spans_nil_iff.1 hSpans
      rfl
  | succ n ih =>
    rw [Read.times_succ]
    show (item.get >>= fun value => item.get.times n >>= fun others => Pure.pure (value :: others))
      before = (.ok values, after) ↔ _
    simp only [Read.bind_eq_ok_iff, Read.pure_eq_ok_iff, hItem.get_eq_ok_iff, ih]
    constructor
    · rintro ⟨value, middle, hFirst, others, last, ⟨hLength, hOthers⟩, rfl, rfl⟩
      refine ⟨by rw [List.length_cons, hLength], ?_⟩
      exact Output.liesBetween_append_iff.2 ⟨middle, hFirst, hOthers⟩
    · rintro ⟨hLength, hAll⟩
      obtain ⟨value, others, rfl⟩ := List.exists_cons_of_length_eq_add_one hLength
      obtain ⟨middle, hFirst, hOthers⟩ := Output.liesBetween_append_iff.1 hAll
      exact ⟨value, middle, hFirst, others, after, ⟨Nat.succ.inj hLength, hOthers⟩, rfl, rfl⟩

theorem Faithful.list {item : Codec α} (hItem : item.Faithful) : (Codec.list item).Faithful := by
  refine ⟨fun {before after values} => ?_⟩
  simp only [Codec.list, Read.bind_eq_ok_iff, faithful_u16.get_eq_ok_iff, hItem.times_eq_ok_iff,
    counted_liesBetween_iff]

/-! ### Optional fields -/

/-- Nothing is lost to the sentinel: it is what an absent field is written as, and a present field
    that equals it is not written at all. -/
theorem Faithful.orSentinel [DecidableEq α] [HasSentinel α] {codec : Codec α}
    (hCodec : codec.Faithful) : codec.orSentinel.Faithful := by
  refine ⟨fun {before after value} => ?_⟩
  simp only [Codec.orSentinel, Read.bind_eq_ok_iff, Read.pure_eq_ok_iff, hCodec.get_eq_ok_iff]
  cases value with
  | none =>
    constructor
    · rintro ⟨read, middle, hWritten, hNone, rfl⟩
      by_cases hSentinel : read = HasSentinel.sentinel
      · rw [← hSentinel]
        exact hWritten
      · rw [if_neg hSentinel] at hNone
        cases hNone
    · intro hWritten
      exact ⟨HasSentinel.sentinel, after, hWritten, by rw [if_pos rfl], rfl⟩
  | some present =>
    -- The sentinel is refused as a present value, and never read as one.
    constructor
    · rintro ⟨read, middle, hWritten, hSome, rfl⟩
      by_cases hSentinel : read = HasSentinel.sentinel
      · rw [if_pos hSentinel] at hSome
        cases hSome
      · rw [if_neg hSentinel] at hSome
        cases hSome
        dsimp only
        rw [if_neg hSentinel]
        exact hWritten
    · intro hWritten
      dsimp only at hWritten
      by_cases hSentinel : present = HasSentinel.sentinel
      · rw [if_pos hSentinel] at hWritten
        exact absurd hWritten Output.not_liesBetween_fail
      · rw [if_neg hSentinel] at hWritten
        exact ⟨present, after, hWritten, by rw [if_neg hSentinel], rfl⟩

/-- A byte in front tells an absent field from a present one. -/
theorem Faithful.tagged {codec : Codec α} (hCodec : codec.Faithful) : codec.tagged.Faithful := by
  refine ⟨fun {before after value} => ?_⟩
  simp only [Codec.tagged, Read.bind_eq_ok_iff, faithful_u8.get_eq_ok_iff]
  cases value with
  | none =>
    constructor
    · rintro ⟨tag, middle, hTag, hResult⟩
      split at hResult
      · rename_i hZero
        obtain ⟨-, rfl⟩ := Read.pure_eq_ok_iff.1 hResult
        rw [← hZero]
        exact hTag
      · split at hResult
        · obtain ⟨read, last, -, hSome⟩ := Read.bind_eq_ok_iff.1 hResult
          cases (Read.pure_eq_ok_iff.1 hSome).1
        · exact absurd hResult Read.fail_ne_ok
    · intro hTag
      exact ⟨0, after, hTag, Read.pure_eq_ok_iff.2 ⟨rfl, rfl⟩⟩
  | some present =>
    constructor
    · rintro ⟨tag, middle, hTag, hResult⟩
      split at hResult
      · cases (Read.pure_eq_ok_iff.1 hResult).1
      · split at hResult
        · rename_i hOne
          obtain ⟨read, last, hRead, hSome⟩ := Read.bind_eq_ok_iff.1 hResult
          obtain ⟨hEq, rfl⟩ := Read.pure_eq_ok_iff.1 hSome
          cases hEq
          rw [hOne] at hTag
          exact Output.liesBetween_append_iff.2 ⟨middle, hTag, hCodec.get_eq_ok_iff.1 hRead⟩
        · exact absurd hResult Read.fail_ne_ok
    · intro hWritten
      obtain ⟨middle, hTag, hPresent⟩ := Output.liesBetween_append_iff.1 hWritten
      refine ⟨1, middle, hTag, ?_⟩
      rw [if_neg (by decide), if_pos rfl]
      exact Read.bind_eq_ok_iff.2 ⟨present, after, hCodec.get_eq_ok_iff.2 hPresent,
        Read.pure_eq_ok_iff.2 ⟨rfl, rfl⟩⟩

/-- An optional field is faithful in both layouts, if what it holds is. -/
theorem Faithful.optional [DecidableEq α] [HasSentinel α] {codec : Codec α}
    (hCodec : codec.Faithful) (layout : Layout) : (codec.optional layout).Faithful := by
  cases layout with
  | legacy => exact hCodec.orSentinel
  | tagged => exact hCodec.tagged

/-! ### Records -/

/-- Two fields are faithful if both of them are. -/
theorem Faithful.pair {first : Codec α} {second : Codec β} (hFirst : first.Faithful)
    (hSecond : second.Faithful) : (first.pair second).Faithful := by
  refine ⟨fun {before after value} => ?_⟩
  simp only [Codec.pair, Read.bind_eq_ok_iff, Read.pure_eq_ok_iff, hFirst.get_eq_ok_iff,
    hSecond.get_eq_ok_iff, Output.liesBetween_append_iff]
  constructor
  · rintro ⟨a, middle, hA, b, last, hB, rfl, rfl⟩
    exact ⟨middle, hA, hB⟩
  · rintro ⟨middle, hA, hB⟩
    exact ⟨value.1, middle, hA, value.2, after, hB, rfl, rfl⟩

/-- A record has the format of its fields if the two can be told from each other. -/
theorem Faithful.iso {codec : Codec α} (hCodec : codec.Faithful) {pack : α → β} {unpack : β → α}
    (hPack : ∀ value, pack (unpack value) = value)
    (hUnpack : ∀ fields, unpack (pack fields) = fields) :
    (codec.iso pack unpack).Faithful := by
  refine ⟨fun {before after value} => ?_⟩
  simp only [Codec.iso, Read.bind_eq_ok_iff, Read.pure_eq_ok_iff, hCodec.get_eq_ok_iff]
  constructor
  · rintro ⟨fields, middle, hWritten, rfl, rfl⟩
    rw [hUnpack]
    exact hWritten
  · intro hWritten
    exact ⟨unpack value, after, hWritten, (hPack value).symm, rfl⟩

theorem faithful_location : location.Faithful :=
  (faithful_text.pair faithful_i32).iso (fun _ => rfl) (fun _ => rfl)

theorem faithful_libraryOrigin : libraryOrigin.Faithful :=
  (faithful_text.pair faithful_text).iso (fun _ => rfl) (fun _ => rfl)

/-- In a list of values in the order of their ordinals, only the ordinal of a value finds it. -/
theorem ordinal_eq_of_getElem? {all : List α} {ordinal : α → UInt8}
    (hAll : ∀ i : Fin all.length, ordinal all[i] = UInt8.ofNat i) (byte : UInt8) (value : α)
    (hFound : all[byte.toNat]? = some value) : ordinal value = byte := by
  obtain ⟨hBelow, rfl⟩ := List.getElem?_eq_some_iff.1 hFound
  have hOrdinal := hAll ⟨byte.toNat, hBelow⟩
  exact hOrdinal.trans UInt8.ofNat_toNat

theorem faithful_visibility : visibility.Faithful :=
  faithful_ordinal Visibility.ofOrdinal?_ordinal (ordinal_eq_of_getElem? (by decide))

theorem faithful_parameterKind : parameterKind.Faithful :=
  faithful_ordinal ParameterKind.ofOrdinal?_ordinal (ordinal_eq_of_getElem? (by decide))

theorem faithful_classDescriptor (layout : Layout) : (classDescriptor layout).Faithful :=
  (faithful_text.pair (faithful_libraryOrigin.optional layout)).iso (fun _ => rfl) (fun _ => rfl)

theorem faithful_methodDescriptor (layout : Layout) : (methodDescriptor layout).Faithful :=
  ((faithful_classDescriptor layout).pair <| faithful_text.pair <| faithful_visibility.pair <|
    faithful_location.optional layout).iso (fun _ => rfl) (fun _ => rfl)

theorem faithful_parameterInfo : parameterInfo.Faithful :=
  (faithful_text.pair faithful_parameterKind).iso (fun _ => rfl) (fun _ => rfl)

theorem faithful_callSignature : callSignature.Faithful :=
  (faithful_text.pair <| faithful_text.pair <| faithful_visibility.pair <|
    faithful_parameterInfo.list.pair <| faithful_text.list.pair <| faithful_libraryOrigin.pair <|
    faithful_text.pair faithful_bool).iso (fun _ => rfl) (fun _ => rfl)

theorem faithful_ancestorRecord : ancestorRecord.Faithful :=
  (faithful_text.pair faithful_text.list).iso (fun _ => rfl) (fun _ => rfl)

end Codec

/-- Every record type has one format, which reading and writing share. -/
theorem RecordKind.faithful_codec (layout : Layout) :
    (kind : RecordKind) → (kind.codec layout).Faithful
  | .location => Codec.faithful_location
  | .libraryOrigin => Codec.faithful_libraryOrigin
  | .visibility => Codec.faithful_visibility
  | .parameterKind => Codec.faithful_parameterKind
  | .classDescriptor => Codec.faithful_classDescriptor layout
  | .methodDescriptor => Codec.faithful_methodDescriptor layout
  | .parameterInfo => Codec.faithful_parameterInfo
  | .callSignature => Codec.faithful_callSignature
  | .ancestorRecord => Codec.faithful_ancestorRecord

/-- Every optional field is faithful, in both layouts. -/
theorem OptionalKind.faithful_codec (layout : Layout) :
    (kind : OptionalKind) → (kind.codec layout).Faithful
  | .location => Codec.faithful_location.optional layout
  | .libraryOrigin => Codec.faithful_libraryOrigin.optional layout

/-- Every field of a stream is faithful, in both layouts. -/
theorem Shape.faithful_codec (layout : Layout) : (shape : Shape) → (shape.codec layout).Faithful
  | .u8 => Codec.faithful_u8
  | .u16 => Codec.faithful_u16
  | .u32 => Codec.faithful_u32
  | .i32 => Codec.faithful_i32
  | .bool => Codec.faithful_bool
  | .text => Codec.faithful_text
  | .texts => Codec.faithful_text.list
  | .record kind => kind.faithful_codec layout
  | .records kind => (kind.faithful_codec layout).list
  | .optional kind => kind.faithful_codec layout

/-! ## One encoding for one record -/

/-- **Decoding is canonical.**  Bytes that are decoded as a record are the bytes it is encoded as:
    no limit and no sentinel stands in the way of writing it back.  So the bytes that are accepted
    are those that encoding produces, and no record is decoded from two sequences of bytes. -/
theorem RecordKind.encode_eq_ok_of_decode_eq_ok (kind : RecordKind) (layout : Layout) :
    (∀ bytes value, (kind.codec layout).decode bytes = .ok value →
      (kind.codec layout).encode value = .ok bytes) ∧
    (∀ bytes, (∃ value, (kind.codec layout).decode bytes = .ok value) ↔
      ∃ value, (kind.codec layout).encode value = .ok bytes) ∧
    (∀ bytes other value, (kind.codec layout).decode bytes = .ok value →
      (kind.codec layout).decode other = .ok value → other = bytes) := by
  have hInverse : ∀ {bytes : List UInt8} {value : kind.Value},
      (kind.codec layout).decode bytes = .ok value ↔ (kind.codec layout).encode value = .ok bytes :=
    (kind.faithful_codec layout).decode_eq_ok_iff
  refine ⟨fun bytes value hDecode => hInverse.1 hDecode, fun bytes => ?_, ?_⟩
  · simp only [hInverse]
  · intro bytes other value hBytes hOther
    have hEncode := hInverse.1 hBytes
    rw [hInverse.1 hOther] at hEncode
    exact Except.ok.inj hEncode

/-- An origin of two empty texts is absent in the legacy layout, and is written back so. -/
example : ((RecordKind.classDescriptor.codec .legacy).decode [0, 1, 65, 0, 0, 0, 0]).toOption =
    some ⟨"A", none⟩ := by
  decide

end Lineage.Wire
