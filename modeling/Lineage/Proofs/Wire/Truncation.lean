/-
  Bytes that are cut off are told from bytes that are wrong, and more bytes never change a verdict.

  A step of reading is PROMPT if it looks at nothing but the bytes it goes over.  What it has read
  it reads from these bytes alone, whatever follows them; what it has refused it refuses whatever
  follows; and where it asks for more bytes there are fewer than it needs.  A sequence of prompt
  steps is prompt (`Read.Prompt.bind`), and so is the reading of every record and of a store, except
  for the last look whether anything is left.

  From promptness alone follows what becomes of the prefixes of any bytes (`prefixVerdicts`): they
  are too short up to a cut, and from the cut on there is one verdict.  If it is a value, then the
  cut is where the value ends, since a shorter prefix that held it all would have been enough; what
  comes after the cut is trailing.
-/
import Lineage.Proofs.Wire.Faithful
import Lineage.Wire.Store
import Mathlib.Data.Nat.Find

namespace Lineage.Wire

variable {α β : Type}

/-! ## Verdicts on prefixes -/

/-- Does the error say that bytes are missing? -/
def DecodeError.isEnd : DecodeError → Bool
  | unexpectedEnd _ _ => true
  | _ => false

/-- The bytes ended inside a field, which needed more of them than there were. -/
def Starved (result : Except DecodeError α) : Prop :=
  ∃ needed remaining, result = .error (.unexpectedEnd needed remaining) ∧ remaining < needed

/-- What becomes of the prefixes of some bytes: up to a cut they are too short, and from there on
    the verdict stands. -/
inductive PrefixVerdicts (decode : List UInt8 → Except DecodeError α) (bytes : List UInt8) : Prop
  /-- Even all the bytes are too few. -/
  | starved (hStarved : ∀ n ≤ bytes.length, Starved (decode (bytes.take n)))
  /-- The bytes up to the cut are those of a value, and all others are trailing. -/
  | accepted (cut : Nat) (value : α) (hCut : cut ≤ bytes.length)
      (hStarved : ∀ n < cut, Starved (decode (bytes.take n)))
      (hValue : decode (bytes.take cut) = .ok value)
      (hTrailing : ∀ n, cut < n → n ≤ bytes.length →
        decode (bytes.take n) = .error (.trailingBytes (n - cut)))
  /-- Something is wrong with the bytes up to the cut, and stays so. -/
  | refused (cut : Nat) (error : DecodeError) (hCut : cut ≤ bytes.length)
      (hStarved : ∀ n < cut, Starved (decode (bytes.take n)))
      (hError : error.isEnd = false)
      (hRefused : ∀ n, cut ≤ n → n ≤ bytes.length → decode (bytes.take n) = .error error)

/-- Where bytes are missing, there are fewer than are needed. -/
theorem PrefixVerdicts.remaining_lt {decode : List UInt8 → Except DecodeError α}
    {bytes : List UInt8} (hVerdicts : PrefixVerdicts decode bytes) {needed remaining : Nat}
    (hDecode : decode bytes = .error (.unexpectedEnd needed remaining)) : remaining < needed := by
  -- The bytes are a prefix of themselves, so the verdicts say something of them.
  rw [← List.take_length (l := bytes)] at hDecode
  cases hVerdicts with
  | starved hStarved =>
    obtain ⟨needed', remaining', hError, hLess⟩ := hStarved bytes.length (Nat.le_refl _)
    rw [hDecode] at hError
    cases hError
    exact hLess
  | accepted cut value hCut hStarved hValue hTrailing =>
    rcases Nat.eq_or_lt_of_le hCut with rfl | hLess
    · rw [hDecode] at hValue
      cases hValue
    · have hError := hTrailing bytes.length hLess (Nat.le_refl _)
      rw [hDecode] at hError
      cases hError
  | refused cut error hCut hStarved hError hRefused =>
    have hSame := hRefused bytes.length hCut (Nat.le_refl _)
    rw [hDecode] at hSame
    cases hSame
    cases hError

/-! ## Prompt steps -/

namespace Read

/-- A step that looks at nothing but the bytes it goes over. -/
structure Prompt (step : Read α) : Prop where
  /-- What was read is read from the bytes that were gone over, whatever follows them. -/
  ok : ∀ {before after : Cursor} {value : α}, step before = (.ok value, after) →
    ∃ used, before.Spans used after ∧
      ∀ more, step ⟨before.position, used ++ more⟩ = (.ok value, ⟨after.position, more⟩)
  /-- Where bytes are missing, there are fewer than are needed. -/
  starved : ∀ {before after : Cursor} {needed remaining : Nat},
    step before = (.error (.unexpectedEnd needed remaining), after) → remaining < needed
  /-- What was refused for another reason is refused whatever follows. -/
  refused : ∀ {before after : Cursor} {error : DecodeError}, step before = (.error error, after) →
    error.isEnd = false → ∀ more,
      ∃ after', step ⟨before.position, before.rest ++ more⟩ = (.error error, after')

/-- A sequence of two steps fails in the first step, or in the second one. -/
theorem bind_eq_error_iff {step : Read α} {next : α → Read β} {before after : Cursor}
    {error : DecodeError} :
    (step >>= next) before = (.error error, after) ↔
      step before = (.error error, after) ∨
        ∃ value middle, step before = (.ok value, middle) ∧
          next value middle = (.error error, after) := by
  show Read.bind step next before = _ ↔ _
  rw [Read.bind]
  cases hStep : step before with
  | mk outcome middle =>
    cases outcome with
    | ok value =>
      constructor
      · intro h
        exact .inr ⟨value, middle, rfl, h⟩
      · rintro (h | ⟨value', middle', hEq, h⟩)
        · cases h
        · cases hEq
          exact h
    | error e =>
      constructor
      · intro h
        cases h
        exact .inl rfl
      · rintro (h | ⟨value', middle', hEq, -⟩)
        · cases h
          rfl
        · cases hEq

/-- A step that reads nothing is prompt. -/
theorem prompt_pure (value : α) : (Pure.pure value : Read α).Prompt where
  ok := by
    rintro before after result hPure
    obtain ⟨rfl, rfl⟩ := pure_eq_ok_iff.1 hPure
    exact ⟨[], Cursor.spans_nil_iff.2 rfl, fun more => rfl⟩
  starved := by
    rintro before after needed remaining ⟨⟩
  refused := by
    rintro before after error ⟨⟩

/-- A step that fails is prompt, unless it says that the bytes have ended. -/
theorem prompt_fail {error : DecodeError} (hError : error.isEnd = false) :
    (Read.fail error : Read α).Prompt where
  ok := fun hFail => absurd hFail fail_ne_ok
  starved := by
    rintro before after needed remaining ⟨⟩
    cases hError
  refused := by
    rintro before after error' hFail - more
    cases hFail
    exact ⟨_, rfl⟩

/-- Bytes are asked for in vain if there are fewer, and then the cursor stays where it is. -/
theorem slice_eq_error_iff {count : Nat} {before after : Cursor} {error : DecodeError} :
    Read.slice count before = (.error error, after) ↔
      error = .unexpectedEnd count before.remaining ∧ after = before ∧
        before.remaining < count := by
  have hTaken : (before.rest.take count).length = count ↔ ¬ before.remaining < count := by
    rw [List.length_take, Cursor.remaining]
    omega
  rw [Read.slice, List.splitAt_eq]
  dsimp only
  -- `splitAt` gives what there is, so it has the right length only if enough is left.
  by_cases hShort : before.remaining < count
  · rw [if_neg fun hLength => hTaken.1 hLength hShort]
    constructor
    · intro hSlice
      cases hSlice
      exact ⟨rfl, rfl, hShort⟩
    · rintro ⟨rfl, rfl, -⟩
      rfl
  · rw [if_pos (hTaken.2 hShort)]
    constructor
    · intro hSlice
      cases hSlice
    · rintro ⟨-, -, hLess⟩
      exact absurd hLess hShort

/-- Taking bytes is prompt: it looks at no others. -/
theorem prompt_slice (count : Nat) : (Read.slice count).Prompt where
  ok := by
    rintro before after bytes hSlice
    obtain ⟨hLength, hSpans⟩ := slice_eq_ok_iff.1 hSlice
    exact ⟨bytes, hSpans, fun more => slice_eq_ok_iff.2 ⟨hLength, rfl, hSpans.position⟩⟩
  starved := by
    rintro before after needed remaining hSlice
    obtain ⟨hError, -, hLess⟩ := slice_eq_error_iff.1 hSlice
    cases hError
    exact hLess
  refused := by
    rintro before after error hSlice hError
    obtain ⟨rfl, -, -⟩ := slice_eq_error_iff.1 hSlice
    cases hError

/-- **A sequence of prompt steps is prompt.** -/
theorem Prompt.bind {step : Read α} {next : α → Read β} (hStep : step.Prompt)
    (hNext : ∀ value, (next value).Prompt) : (step >>= next).Prompt where
  ok := by
    intro before after result hBind
    obtain ⟨value, middle, hFirst, hSecond⟩ := bind_eq_ok_iff.1 hBind
    obtain ⟨x, hSpans, hFirst'⟩ := hStep.ok hFirst
    obtain ⟨y, hSpans', hSecond'⟩ := (hNext value).ok hSecond
    refine ⟨x ++ y, Cursor.spans_append_iff.2 ⟨middle, hSpans, hSpans'⟩, fun more => ?_⟩
    rw [List.append_assoc]
    exact bind_eq_ok_iff.2 ⟨value, _, hFirst' (y ++ more), hSecond' more⟩
  starved := by
    intro before after needed remaining hBind
    rcases bind_eq_error_iff.1 hBind with hFirst | ⟨value, middle, -, hSecond⟩
    · exact hStep.starved hFirst
    · exact (hNext value).starved hSecond
  refused := by
    intro before after error hBind hError more
    rcases bind_eq_error_iff.1 hBind with hFirst | ⟨value, middle, hFirst, hSecond⟩
    · obtain ⟨after', hFirst'⟩ := hStep.refused hFirst hError more
      exact ⟨after', bind_eq_error_iff.2 (.inl hFirst')⟩
    · -- The first step stops where it did, with the more bytes still to come.
      obtain ⟨x, hSpans, hFirst'⟩ := hStep.ok hFirst
      obtain ⟨after', hSecond'⟩ := (hNext value).refused hSecond hError more
      refine ⟨after', bind_eq_error_iff.2 (.inr ⟨value, _, ?_, hSecond'⟩)⟩
      rw [hSpans.rest, List.append_assoc]
      exact hFirst' (middle.rest ++ more)

/-- A prompt step stays prompt when a check comes before it. -/
theorem prompt_guard {p : Prop} [Decidable p] {error : DecodeError} {rest : Read α}
    (hError : error.isEnd = false) (hRest : rest.Prompt) :
    (do
      if p then Read.fail error
      rest : Read α).Prompt := by
  by_cases hFails : p
  · rw [if_pos hFails]
    exact (prompt_fail hError).bind fun _ => hRest
  · rw [if_neg hFails]
    exact hRest

/-- A prompt step is prompt any number of times. -/
theorem Prompt.times {step : Read α} (hStep : step.Prompt) (count : Nat) :
    (step.times count).Prompt := by
  induction count with
  | zero => exact prompt_pure []
  | succ n ih =>
    rw [Read.times_succ]
    exact hStep.bind fun value => ih.bind fun values => prompt_pure (value :: values)

end Read

/-! ## Records are read promptly -/

namespace Codec

open Read

theorem prompt_number {width : Nat} {toNat : α → Nat} {ofNat : Nat → α} :
    (number width toNat ofNat).get.Prompt :=
  (prompt_slice width).bind fun bytes => prompt_pure (ofNat (BigEndian.ofBytes bytes))

theorem prompt_ordinal {toByte : α → UInt8} {ofByte? : UInt8 → Option α}
    {refuse : UInt8 → DecodeError} (hRefuse : ∀ byte, (refuse byte).isEnd = false) :
    (ordinal toByte ofByte? refuse).get.Prompt := by
  refine Prompt.bind prompt_number fun byte => ?_
  cases ofByte? byte with
  | none => exact prompt_fail (hRefuse byte)
  | some value => exact prompt_pure value

theorem prompt_text : text.get.Prompt := by
  refine Prompt.bind prompt_number fun length => (prompt_slice length.toNat).bind fun bytes => ?_
  cases Utf8.decode? bytes with
  | none => exact prompt_fail rfl
  | some value => exact prompt_pure value

theorem prompt_list {item : Codec α} (hItem : item.get.Prompt) : (list item).get.Prompt :=
  Prompt.bind prompt_number fun count => hItem.times count.toNat

/-- Reading an optional field is prompt if reading what it holds is. -/
theorem prompt_optional [DecidableEq α] [HasSentinel α] {codec : Codec α}
    (hCodec : codec.get.Prompt) (layout : Layout) : (codec.optional layout).get.Prompt := by
  cases layout with
  | legacy => exact hCodec.bind fun value => prompt_pure _
  | tagged =>
    refine Prompt.bind prompt_number fun tag => ?_
    by_cases hZero : tag = 0
    · rw [if_pos hZero]
      exact prompt_pure none
    · rw [if_neg hZero]
      by_cases hOne : tag = 1
      · rw [if_pos hOne]
        exact hCodec.bind fun value => prompt_pure (some value)
      · rw [if_neg hOne]
        exact prompt_fail rfl

theorem prompt_pair {first : Codec α} {second : Codec β} (hFirst : first.get.Prompt)
    (hSecond : second.get.Prompt) : (first.pair second).get.Prompt :=
  hFirst.bind fun a => hSecond.bind fun b => prompt_pure (a, b)

theorem prompt_iso {codec : Codec α} (hCodec : codec.get.Prompt) {pack : α → β} {unpack : β → α} :
    (codec.iso pack unpack).get.Prompt :=
  hCodec.bind fun fields => prompt_pure (pack fields)

theorem prompt_location : location.get.Prompt := prompt_iso (prompt_pair prompt_text prompt_number)

theorem prompt_libraryOrigin : libraryOrigin.get.Prompt :=
  prompt_iso (prompt_pair prompt_text prompt_text)

theorem prompt_visibility : visibility.get.Prompt := prompt_ordinal fun _ => rfl

theorem prompt_parameterKind : parameterKind.get.Prompt := prompt_ordinal fun _ => rfl

theorem prompt_classDescriptor (layout : Layout) : (classDescriptor layout).get.Prompt :=
  prompt_iso (prompt_pair prompt_text (prompt_optional prompt_libraryOrigin layout))

theorem prompt_methodDescriptor (layout : Layout) : (methodDescriptor layout).get.Prompt :=
  prompt_iso <| prompt_pair (prompt_classDescriptor layout) <| prompt_pair prompt_text <|
    prompt_pair prompt_visibility <| prompt_optional prompt_location layout

theorem prompt_parameterInfo : parameterInfo.get.Prompt :=
  prompt_iso (prompt_pair prompt_text prompt_parameterKind)

theorem prompt_callSignature : callSignature.get.Prompt :=
  prompt_iso <| prompt_pair prompt_text <| prompt_pair prompt_text <|
    prompt_pair prompt_visibility <| prompt_pair (prompt_list prompt_parameterInfo) <|
    prompt_pair (prompt_list prompt_text) <| prompt_pair prompt_libraryOrigin <|
    prompt_pair prompt_text (prompt_ordinal fun _ => rfl)

theorem prompt_ancestorRecord : ancestorRecord.get.Prompt :=
  prompt_iso (prompt_pair prompt_text (prompt_list prompt_text))

end Codec

/-- Reading any record is prompt, in both layouts. -/
theorem RecordKind.prompt_codec (layout : Layout) :
    (kind : RecordKind) → (kind.codec layout).get.Prompt
  | .location => Codec.prompt_location
  | .libraryOrigin => Codec.prompt_libraryOrigin
  | .visibility => Codec.prompt_visibility
  | .parameterKind => Codec.prompt_parameterKind
  | .classDescriptor => Codec.prompt_classDescriptor layout
  | .methodDescriptor => Codec.prompt_methodDescriptor layout
  | .parameterInfo => Codec.prompt_parameterInfo
  | .callSignature => Codec.prompt_callSignature
  | .ancestorRecord => Codec.prompt_ancestorRecord

namespace ContractStore

open Read

theorem prompt_readHeader : readHeader.Prompt := by
  refine (prompt_slice magic.length).bind fun start => prompt_guard rfl ?_
  refine Prompt.bind Codec.prompt_number fun version => ?_
  cases Layout.ofVersion? version with
  | none => exact prompt_fail rfl
  | some layout => exact Prompt.bind Codec.prompt_number fun count => prompt_pure (layout, count)

/-- A store without the look whether anything is left. -/
def readContents : Read ContractStore := do
  let (layout, count) ← readHeader
  let methods ← (Codec.methodDescriptor layout).get.times count.toNat
  return { layout, methods }

theorem prompt_readContents : readContents.Prompt := by
  refine prompt_readHeader.bind fun header => ?_
  obtain ⟨layout, count⟩ := header
  exact ((Codec.prompt_methodDescriptor layout).times count.toNat).bind fun methods =>
    prompt_pure (ContractStore.mk layout methods)

end ContractStore

/-! ## Whole values -/

namespace Read

/-- What is read of some bytes, if nothing is left of them. -/
def whole (step : Read α) (bytes : List UInt8) : Except DecodeError α :=
  ((do
    let value ← step
    Read.expectEnd
    return value : Read α) (.ofBytes bytes)).1

variable {step : Read α} {bytes : List UInt8} {after : Cursor}

/-- A value that is read is the whole if nothing is left behind it. -/
theorem whole_of_ok {value : α} (hStep : step (.ofBytes bytes) = (.ok value, after)) :
    step.whole bytes =
      if after.rest.length = 0 then .ok value else .error (.trailingBytes after.rest.length) := by
  show (Read.bind step _ (.ofBytes bytes)).1 = _
  rw [Read.bind, hStep]
  show (Read.bind expectEnd _ after).1 = _
  rw [Read.bind, expectEnd, Cursor.remaining]
  cases after.rest.length <;> rfl

theorem whole_of_error {error : DecodeError}
    (hStep : step (.ofBytes bytes) = (.error error, after)) : step.whole bytes = .error error := by
  show (Read.bind step _ (.ofBytes bytes)).1 = _
  rw [Read.bind, hStep]

/-- If a value was read of some bytes, then of its own bytes alone it is read as well. -/
theorem Prompt.whole_used (hPrompt : step.Prompt) {value : α}
    (hStep : step (.ofBytes bytes) = (.ok value, after)) :
    ∃ used, bytes = used ++ after.rest ∧ ∀ more, step.whole (used ++ more) =
      if more.length = 0 then .ok value else .error (.trailingBytes more.length) := by
  obtain ⟨used, hSpans, hUsed⟩ := hPrompt.ok hStep
  exact ⟨used, hSpans.rest, fun more => whole_of_ok (hUsed more)⟩

/-- What was refused is refused with more bytes too. -/
theorem Prompt.whole_refused (hPrompt : step.Prompt) {error : DecodeError}
    (hStep : step (.ofBytes bytes) = (.error error, after)) (hError : error.isEnd = false)
    (more : List UInt8) : step.whole (bytes ++ more) = .error error := by
  obtain ⟨after', hMore⟩ := hPrompt.refused hStep hError more
  exact whole_of_error hMore

/-- Of two prefixes the longer one begins with the shorter one. -/
theorem take_eq_append {cut n : Nat} (hCut : cut ≤ n) (hLength : n ≤ bytes.length) :
    ∃ more, bytes.take n = bytes.take cut ++ more ∧ more.length = n - cut := by
  refine ⟨(bytes.drop cut).take (n - cut), ?_, ?_⟩
  · rw [← List.take_add]
    congr 1
    omega
  · rw [List.length_take, List.length_drop]
    omega

/-- What is refused at the cut is refused from there on. -/
theorem Prompt.prefixVerdicts_of_error (hPrompt : step.Prompt) {cut : Nat}
    (hCut : cut ≤ bytes.length) (hStarved : ∀ n < cut, Starved (step.whole (bytes.take n)))
    {error : DecodeError} (hError : error.isEnd = false)
    (hStep : step (.ofBytes (bytes.take cut)) = (.error error, after)) :
    PrefixVerdicts step.whole bytes := by
  refine .refused cut error hCut hStarved hError fun n hn hLength => ?_
  obtain ⟨more, hMore, -⟩ := take_eq_append hn hLength
  rw [hMore]
  exact hPrompt.whole_refused hStep hError more

/-- What is read at the cut ends there, and is followed by trailing bytes. -/
theorem Prompt.prefixVerdicts_of_ok (hPrompt : step.Prompt) {cut : Nat}
    (hCut : cut ≤ bytes.length) (hStarved : ∀ n < cut, Starved (step.whole (bytes.take n)))
    {value : α} (hStep : step (.ofBytes (bytes.take cut)) = (.ok value, after)) :
    PrefixVerdicts step.whole bytes := by
  obtain ⟨used, hTake, hUsed⟩ := hPrompt.whole_used hStep
  have hValue : step.whole used = .ok value := by
    have hNothing := hUsed []
    rwa [List.append_nil] at hNothing
  -- A shorter prefix that held all of the value would have been long enough.
  have hEnd : after.rest = [] := by
    by_contra hLeft
    have hShorter : used.length < cut := by
      have hLength := congrArg List.length hTake
      have hPositive := List.length_pos_iff.2 hLeft
      rw [List.length_take, List.length_append] at hLength
      omega
    have hPrefix : bytes.take used.length = used := by
      rw [← Nat.min_eq_left (Nat.le_of_lt hShorter), ← List.take_take, hTake, List.take_left]
    obtain ⟨needed, remaining, hFew, -⟩ := hStarved used.length hShorter
    rw [hPrefix, hValue] at hFew
    cases hFew
  rw [hEnd, List.append_nil] at hTake
  refine .accepted cut value hCut hStarved (by rw [hTake, hValue]) fun n hn hLength => ?_
  obtain ⟨more, hMore, hRest⟩ := take_eq_append (Nat.le_of_lt hn) hLength
  rw [hMore, hTake, hUsed more, hRest, if_neg (by omega)]

/-- **The prefixes of any bytes** are too short up to a cut, and get one verdict from there on. -/
theorem Prompt.prefixVerdicts (hPrompt : step.Prompt) (bytes : List UInt8) :
    PrefixVerdicts step.whole bytes := by
  classical
  by_cases hAll : ∀ n ≤ bytes.length, Starved (step.whole (bytes.take n))
  · exact .starved hAll
  -- The cut is the length of the shortest prefix that is long enough.
  have hSome : ∃ n, n ≤ bytes.length ∧ ¬ Starved (step.whole (bytes.take n)) := by
    simpa only [not_forall, exists_prop] using hAll
  obtain ⟨hCut, hEnough⟩ := Nat.find_spec hSome
  have hStarved : ∀ n < Nat.find hSome, Starved (step.whole (bytes.take n)) := by
    intro n hn
    by_contra hNot
    exact Nat.find_min hSome hn ⟨by omega, hNot⟩
  cases hStep : step (.ofBytes (bytes.take (Nat.find hSome))) with
  | mk result after =>
    cases result with
    | ok value => exact hPrompt.prefixVerdicts_of_ok hCut hStarved hStep
    | error error =>
      refine hPrompt.prefixVerdicts_of_error hCut hStarved ?_ hStep
      cases error with
      | unexpectedEnd needed remaining =>
        exact absurd ⟨needed, remaining, whole_of_error hStep, hPrompt.starved hStep⟩ hEnough
      | _ => rfl

/-- Steps may be grouped as one likes. -/
theorem bind_assoc {γ : Type} (step : Read α) (next : α → Read β) (last : β → Read γ) :
    step >>= next >>= last = step >>= fun value => next value >>= last := by
  funext cursor
  show Read.bind (Read.bind step next) last cursor =
    Read.bind step (fun value => Read.bind (next value) last) cursor
  rw [Read.bind, Read.bind, Read.bind]
  cases step cursor with
  | mk result after => cases result <;> rfl

end Read

/-- The model reads a store as its contents and nothing behind them. -/
theorem ContractStore.ofBytes_eq_whole : ContractStore.ofBytes = readContents.whole := by
  have hRead : ContractStore.read = (do
      let store ← readContents
      Read.expectEnd
      return store) := by
    rw [read, readContents, Read.bind_assoc]
    congr 1
    funext header
    obtain ⟨layout, count⟩ := header
    dsimp only
    rw [Read.bind_assoc]
    rfl
  funext bytes
  rw [ContractStore.ofBytes, hRead, Read.whole]

/-- **Truncation is recognised, and more bytes never change a verdict**, for every record type in
    both layouts and for stores: the prefixes of any bytes are all too short, or they are too short
    up to a cut and from there on a value with trailing bytes, or one and the same error.  Bytes
    that are too short are never as many as are needed. -/
theorem decode_prefixes :
    (∀ (kind : RecordKind) (layout : Layout) (bytes : List UInt8),
      PrefixVerdicts (kind.codec layout).decode bytes ∧
        ∀ needed remaining, (kind.codec layout).decode bytes =
          .error (.unexpectedEnd needed remaining) → remaining < needed) ∧
    ∀ bytes : List UInt8,
      PrefixVerdicts ContractStore.ofBytes bytes ∧
        ∀ needed remaining, ContractStore.ofBytes bytes =
          .error (.unexpectedEnd needed remaining) → remaining < needed := by
  refine ⟨fun kind layout bytes => ?_, fun bytes => ?_⟩
  · have hVerdicts : PrefixVerdicts (kind.codec layout).decode bytes :=
      (kind.prompt_codec layout).prefixVerdicts bytes
    exact ⟨hVerdicts, fun _ _ => hVerdicts.remaining_lt⟩
  · have hVerdicts : PrefixVerdicts ContractStore.ofBytes bytes := by
      rw [ContractStore.ofBytes_eq_whole]
      exact ContractStore.prompt_readContents.prefixVerdicts bytes
    exact ⟨hVerdicts, fun _ _ => hVerdicts.remaining_lt⟩

end Lineage.Wire
