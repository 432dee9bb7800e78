/-
  A contract store has one sequence of bytes, and no two stores share one.

  The bytes of a store are its header, which names the layout and counts the methods, and the bytes
  of the methods in that layout.  Both directions say so of themselves, `toBytes_eq_ok_iff` of
  writing and `ofBytes_eq_ok_iff` of reading, in the same words; that each undoes the other is what
  the two equivalences come to when they are put together.

  The header is the part that is written in one order and checked in another way: its version byte
  decides in which layout the rest is read, and its count how much of it.
-/
import Lineage.Proofs.Wire.Faithful
import Lineage.Wire.Store

namespace Lineage.Wire

/-- The version byte of a layout names no other layout. -/
theorem Layout.ofVersion?_eq_some_iff {version : UInt8} {layout : Layout} :
    ofVersion? version = some layout ↔ version = layout.version := by
  constructor
  · intro h
    unfold ofVersion? at h
    split at h <;> cases h <;> rfl
  · rintro rfl
    exact ofVersion?_version layout

namespace ContractStore

/-! ## What the bytes of a store are -/

/-- The header of a store of `count` methods. -/
def header (layout : Layout) (count : Nat) : List UInt8 :=
  magic ++ layout.version :: BigEndian.toBytes 4 count

/-- The methods of a store, as they are written after its header. -/
def body (store : ContractStore) : Output :=
  .concat (store.methods.map (Codec.methodDescriptor store.layout).put)

/-- The numbers up to the limit are those that the header can hold. -/
theorem toNat_ofNat_of_le_methodLimit {count : Nat} (hCount : count ≤ methodLimit) :
    (UInt32.ofNat count).toNat = count := by
  rw [methodLimit] at hCount
  refine UInt32.toNat_ofNat_of_lt' ?_
  show count < 4294967296
  omega

theorem toNat_le_methodLimit (count : UInt32) : count.toNat ≤ methodLimit := by
  have hBelow : count.toNat < 4294967296 := count.toNat_lt
  show count.toNat ≤ 4294967295
  omega

/-- The bytes of a store begin with the bytes of its header. -/
theorem header_put (layout : Layout) {count : Nat} (hCount : count ≤ methodLimit) :
    Output.raw magic ++ Codec.u8.put layout.version ++ Codec.u32.put (.ofNat count) =
      .raw (header layout count) := by
  have hNumber := toNat_ofNat_of_le_methodLimit hCount
  have hVersion : Codec.u8.put layout.version = .raw [layout.version] := by cases layout <;> rfl
  have hPut : Codec.u32.put (.ofNat count) = .raw (BigEndian.toBytes 4 count) :=
    congrArg (fun n => Output.raw (BigEndian.toBytes 4 n)) hNumber
  rw [hVersion, hPut, Output.raw_append_raw, Output.raw_append_raw, header, List.append_assoc]
  rfl

/-- **Writing.**  A store has bytes if its methods can be counted and all of them have bytes. -/
theorem toBytes_eq_ok_iff {store : ContractStore} {bytes : List UInt8} :
    store.toBytes = .ok bytes ↔ store.methods.length ≤ methodLimit ∧
      ∃ rest, store.body = .raw rest ∧
        bytes = header store.layout store.methods.length ++ rest := by
  rw [toBytes]
  by_cases hCount : store.methods.length ≤ methodLimit
  · rw [if_pos hCount]
    dsimp only
    rw [header_put store.layout hCount, Output.toExcept_eq_ok_iff, Output.append_eq_raw_iff]
    constructor
    · rintro ⟨first, rest, hHeader, hBody, rfl⟩
      obtain rfl := Output.raw_inj.1 hHeader
      exact ⟨hCount, rest, hBody, rfl⟩
    · rintro ⟨-, rest, hBody, rfl⟩
      exact ⟨_, rest, rfl, hBody, rfl⟩
  · rw [if_neg hCount]
    constructor
    · intro h
      cases h
    · rintro ⟨hCount', -⟩
      exact absurd hCount' hCount

/-! ## What is read as a store -/

/-- A header is read where there is one, and it announces what it was written with. -/
theorem readHeader_eq_ok_iff {before after : Cursor} {layout : Layout} {count : UInt32} :
    readHeader before = (.ok (layout, count), after) ↔
      before.Spans (header layout count.toNat) after := by
  have hHeader : header layout count.toNat =
      magic ++ (BigEndian.toBytes 1 layout.version.toNat ++ BigEndian.toBytes 4 count.toNat) := by
    cases layout <;> rfl
  have hVersion : ∀ {start finish : Cursor}, Codec.u8.get start = (.ok layout.version, finish) ↔
      start.Spans (BigEndian.toBytes 1 layout.version.toNat) finish :=
    Codec.faithful_u8.get_eq_ok_iff_of_put rfl
  have hCount : ∀ {start finish : Cursor}, Codec.u32.get start = (.ok count, finish) ↔
      start.Spans (BigEndian.toBytes 4 count.toNat) finish :=
    Codec.faithful_u32.get_eq_ok_iff_of_put rfl
  rw [hHeader]
  simp only [readHeader, Read.bind_eq_ok_iff, Read.slice_eq_ok_iff, Cursor.spans_append_iff]
  constructor
  · rintro ⟨start, afterMagic, ⟨-, hMagic⟩, hRest⟩
    by_cases hStart : start = magic
    · subst hStart
      rw [if_neg (fun hNe => hNe rfl)] at hRest
      obtain ⟨version, afterVersion, hByte, hRest⟩ := Read.bind_eq_ok_iff.1 hRest
      cases hLayout : Layout.ofVersion? version with
      | none =>
        rw [hLayout] at hRest
        exact absurd hRest Read.fail_ne_ok
      | some named =>
        rw [hLayout] at hRest
        obtain ⟨number, afterCount, hNumber, hResult⟩ := Read.bind_eq_ok_iff.1 hRest
        obtain ⟨hEq, rfl⟩ := Read.pure_eq_ok_iff.1 hResult
        cases hEq
        -- No other byte names this layout, so the one that was read is its version.
        obtain rfl := Layout.ofVersion?_eq_some_iff.1 hLayout
        exact ⟨afterMagic, hMagic, afterVersion, hVersion.1 hByte, hCount.1 hNumber⟩
    · -- Other bytes than the magic have failed before anything else was read.
      rw [if_pos hStart] at hRest
      obtain ⟨nothing, afterFail, hFail, hNever⟩ := Read.bind_eq_ok_iff.1 hRest
      exact absurd hFail Read.fail_ne_ok
  · rintro ⟨afterMagic, hMagic, afterVersion, hByte, hNumber⟩
    refine ⟨magic, afterMagic, ⟨rfl, hMagic⟩, ?_⟩
    rw [if_neg (fun hNe => hNe rfl)]
    refine Read.bind_eq_ok_iff.2 ⟨layout.version, afterVersion, hVersion.2 hByte, ?_⟩
    rw [Layout.ofVersion?_version]
    exact Read.bind_eq_ok_iff.2 ⟨count, after, hCount.2 hNumber, Read.pure_eq_ok_iff.2 ⟨rfl, rfl⟩⟩

/-- Where a read leaves off is nothing that `ofBytes` tells. -/
theorem ofBytes_eq_ok_iff_read {store : ContractStore} {bytes : List UInt8} :
    ofBytes bytes = .ok store ↔ ∃ after, read (.ofBytes bytes) = (.ok store, after) := by
  rw [ofBytes]
  cases read (.ofBytes bytes) with
  | mk outcome after => simp

/-- **Reading.**  Bytes are a store if they are its header and then the bytes of its methods. -/
theorem ofBytes_eq_ok_iff {store : ContractStore} {bytes : List UInt8} :
    ofBytes bytes = .ok store ↔ store.methods.length ≤ methodLimit ∧
      ∃ rest, store.body = .raw rest ∧
        bytes = header store.layout store.methods.length ++ rest := by
  rw [ofBytes_eq_ok_iff_read]
  simp only [read, Read.bind_eq_ok_iff]
  constructor
  · rintro ⟨after, ⟨layout, count⟩, afterHeader, hHeader, methods, afterBody, hBody, done, last,
      hEnd, hStore⟩
    obtain ⟨rfl, hRest⟩ := Read.expectEnd_eq_ok_iff.1 hEnd
    obtain ⟨rfl, rfl⟩ := Read.pure_eq_ok_iff.1 hStore
    obtain ⟨hLength, rest, hPut, hSpans⟩ :=
      (Codec.faithful_methodDescriptor layout).times_eq_ok_iff.1 hBody
    change methods.length = count.toNat at hLength
    have hCount : methods.length ≤ methodLimit := by
      rw [hLength]
      exact toNat_le_methodLimit count
    refine ⟨hCount, rest, hPut, ?_⟩
    -- Nothing is left behind the methods: header and methods are all there is.
    have hAll := Cursor.spans_append_iff.2 ⟨afterHeader, readHeader_eq_ok_iff.1 hHeader, hSpans⟩
    rw [hLength]
    exact ((Cursor.ofBytes_spans_end_iff hRest).1 hAll).1.symm
  · rintro ⟨hCount, rest, hPut, rfl⟩
    have hNumber := toNat_ofNat_of_le_methodLimit hCount
    obtain ⟨finish, hFinish, hAll⟩ : ∃ finish : Cursor, finish.rest = [] ∧
        (Cursor.ofBytes (header store.layout store.methods.length ++ rest)).Spans
          (header store.layout store.methods.length ++ rest) finish :=
      ⟨_, rfl, (Cursor.ofBytes_spans_end_iff rfl).2 ⟨rfl, rfl⟩⟩
    obtain ⟨afterHeader, hHeader, hRest⟩ := Cursor.spans_append_iff.1 hAll
    have hRead : readHeader (.ofBytes (header store.layout store.methods.length ++ rest)) =
        (.ok (store.layout, .ofNat store.methods.length), afterHeader) := by
      rw [readHeader_eq_ok_iff, hNumber]
      exact hHeader
    have hBody := (Codec.faithful_methodDescriptor store.layout).times_eq_ok_iff.2
      ⟨hNumber.symm, rest, hPut, hRest⟩
    refine ⟨finish, _, afterHeader, hRead, store.methods, finish, hBody, (), finish, ?_, ?_⟩
    · exact Read.expectEnd_eq_ok_iff.2 ⟨rfl, hFinish⟩
    · exact Read.pure_eq_ok_iff.2 ⟨rfl, rfl⟩

/-- **Stores and their bytes correspond one to one.**  Reading undoes writing and writing undoes
    reading; the layout in which the methods are read is the one that the header names; and no other
    bytes are read as the same store. -/
theorem toBytes_eq_ok_iff_ofBytes_eq_ok (store : ContractStore) (bytes : List UInt8) :
    (store.toBytes = .ok bytes ↔ ofBytes bytes = .ok store) ∧
    (ofBytes bytes = .ok store →
      bytes.take 4 = magic ∧ bytes[4]? = some store.layout.version ∧
        ∃ rest, bytes = header store.layout store.methods.length ++ rest ∧
          .concat (store.methods.map (Codec.methodDescriptor store.layout).put) = Output.raw rest) ∧
    ∀ other, ofBytes bytes = .ok store → ofBytes other = .ok store → other = bytes := by
  refine ⟨toBytes_eq_ok_iff.trans ofBytes_eq_ok_iff.symm, ?_, ?_⟩
  · intro hRead
    obtain ⟨-, rest, hPut, rfl⟩ := ofBytes_eq_ok_iff.1 hRead
    exact ⟨rfl, rfl, rest, rfl, hPut⟩
  · intro other hRead hOther
    obtain ⟨-, rest, hPut, rfl⟩ := ofBytes_eq_ok_iff.1 hRead
    obtain ⟨-, rest', hPut', rfl⟩ := ofBytes_eq_ok_iff.1 hOther
    rw [Output.raw_inj.1 (hPut'.symm.trans hPut)]

example : (ofBytes [0x54, 0x54, 0x43, 0x53, 2, 0, 0, 0, 0]).toOption = some ⟨.tagged, []⟩ := by
  decide

end ContractStore

end Lineage.Wire
