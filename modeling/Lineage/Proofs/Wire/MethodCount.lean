/-
  The number of methods that a header names is the number of methods behind it.

  Methods have no marks between them: where one ends the next one begins, and only the count in the
  header says how many there are.  Another count is noticed all the same.  With a smaller one the
  methods that it leaves out are trailing bytes, as many as they take; with a greater one the bytes
  end where a method should begin, and no method is read of no bytes (`get_nil`).

  The crux is that reading falls in step with writing at EVERY method: the bytes of the methods are
  those of the first ones and then those of the others (`concat_eq_raw_iff`), and reading as many
  as there are first ones stops between the two (`times_of_put`).
-/
import Lineage.Proofs.Wire.StoreFormat
import Lineage.Proofs.Wire.Truncation

namespace Lineage.Wire

variable {α : Type}

/-! ## Items without marks between them -/

/-- A sequence of outputs is complete if each of them is. -/
theorem Output.concat_eq_raw_iff {outputs : List Output} {bytes : List UInt8} :
    Output.concat outputs = .raw bytes ↔
      ∃ parts : List (List UInt8), outputs = parts.map .raw ∧ bytes = parts.flatten := by
  -- On the outputs: each of them has to be bytes for all of them to be.
  induction outputs generalizing bytes with
  | nil =>
    constructor
    · intro h
      obtain rfl : [] = bytes := raw_inj.1 h
      exact ⟨[], rfl, rfl⟩
    · rintro ⟨parts, hParts, rfl⟩
      rw [List.map_eq_nil_iff.1 hParts.symm]
      rfl
  | cons output rest ih =>
    rw [concat_cons, append_eq_raw_iff]
    simp only [ih]
    constructor
    · rintro ⟨part, -, rfl, ⟨parts, rfl, rfl⟩, rfl⟩
      exact ⟨part :: parts, rfl, rfl⟩
    · rintro ⟨parts, hParts, rfl⟩
      obtain ⟨part, others, rfl, rfl, rfl⟩ := List.map_eq_cons_iff.1 hParts.symm
      exact ⟨part, others.flatten, rfl, ⟨others, rfl, rfl⟩, rfl⟩

namespace Read

/-- Reading some values and then more is reading them all. -/
theorem times_add (step : Read α) (first more : Nat) :
    step.times (first + more) =
      step.times first >>= fun values => step.times more >>= fun others =>
        Pure.pure (values ++ others) := by
  induction first with
  | zero =>
    rw [Nat.zero_add, times_zero]
    funext cursor
    show _ = Read.bind (step.times more) (fun others => pure others) cursor
    rw [Read.bind]
    cases step.times more cursor with
    | mk result after => cases result <;> rfl
  | succ n ih =>
    rw [Nat.succ_add, times_succ, times_succ, ih]
    show step >>= (fun value => (_ >>= _) >>= _) = (step >>= fun value => _ >>= _) >>= _
    simp only [bind_assoc]
    rfl

/-- If reading fails after some values, then reading more than these fails in the same way. -/
theorem times_eq_error {step : Read α} {count : Nat} {before middle after : Cursor}
    {values : List α} {error : DecodeError}
    (hFirst : step.times count before = (.ok values, middle))
    (hNext : step middle = (.error error, after)) (more : Nat) :
    step.times (count + (more + 1)) before = (.error error, after) := by
  have hMore : step.times (more + 1) middle = (.error error, after) := by
    rw [times_succ]
    exact bind_eq_error_iff.2 (.inl hNext)
  rw [times_add]
  exact bind_eq_error_iff.2 (.inr ⟨values, middle, hFirst, bind_eq_error_iff.2 (.inl hMore)⟩)

end Read

/-- Reading at the bytes of some values as many as there are stops behind them. -/
theorem Codec.Faithful.times_of_put {item : Codec α} (hItem : item.Faithful) {values : List α}
    {parts : List (List UInt8)} (hParts : values.map item.put = parts.map .raw) (position : Nat)
    (rest : List UInt8) :
    item.get.times values.length ⟨position, parts.flatten ++ rest⟩ =
      (.ok values, ⟨position + parts.flatten.length, rest⟩) :=
  hItem.times_eq_ok_iff.2
    ⟨rfl, parts.flatten, Output.concat_eq_raw_iff.2 ⟨parts, hParts, rfl⟩, rfl, rfl⟩

namespace ContractStore

/-! ## Methods -/

/-- No method is read of no bytes: the length of a name is missing. -/
theorem get_nil (layout : Layout) (position : Nat) :
    (Codec.methodDescriptor layout).get ⟨position, []⟩ =
      (.error (.unexpectedEnd 2 0), ⟨position, []⟩) := by
  cases layout <;> rfl

/-- Every method takes some bytes, the length of its owner's name at least. -/
theorem ne_nil_of_put {layout : Layout} {method : MethodDescriptor} {part : List UInt8}
    (hPut : (Codec.methodDescriptor layout).put method = .raw part) : part ≠ [] := by
  rintro rfl
  have hGet : (Codec.methodDescriptor layout).get ⟨0, []⟩ = (.ok method, ⟨0, []⟩) :=
    ((Codec.faithful_methodDescriptor layout).get_eq_ok_iff_of_put hPut).2 ⟨rfl, rfl⟩
  rw [get_nil] at hGet
  cases hGet

/-! ## Another count -/

/-- Bytes of a store, with another count in the header: the count stands in four bytes behind the
    magic number and the version. -/
def recounted (bytes : List UInt8) (count : UInt32) : List UInt8 :=
  bytes.take 5 ++ BigEndian.toBytes 4 count.toNat ++ bytes.drop 9

/-- Recounting a store replaces the number in its header and nothing else. -/
theorem recounted_header (layout : Layout) (count : Nat) (rest : List UInt8) (other : UInt32) :
    recounted (header layout count ++ rest) other = header layout other.toNat ++ rest := by
  have hRest : (header layout count ++ rest).drop 9 = rest :=
    List.drop_left' (by simp [header, magic])
  rw [recounted, hRest]
  rfl

/-- What is read behind a header. -/
theorem readContents_header (layout : Layout) (count : UInt32) (rest : List UInt8) :
    ∃ position, readContents (.ofBytes (header layout count.toNat ++ rest)) =
      ((Codec.methodDescriptor layout).get.times count.toNat >>= fun methods =>
        Pure.pure { layout, methods }) ⟨position, rest⟩ := by
  have hHeader := readHeader_eq_ok_iff.2
    (show (Cursor.ofBytes (header layout count.toNat ++ rest)).Spans (header layout count.toNat)
      ⟨0 + (header layout count.toNat).length, rest⟩ from ⟨rfl, rfl⟩)
  refine ⟨0 + (header layout count.toNat).length, ?_⟩
  show Read.bind readHeader _ _ = _
  rw [Read.bind, hHeader]

variable {store : ContractStore} {parts : List (List UInt8)} {count : UInt32}

/-- What a smaller count leaves out has bytes. -/
theorem flatten_drop_ne_nil
    (hParts : store.methods.map (Codec.methodDescriptor store.layout).put = parts.map .raw)
    {n : Nat} (hLess : n < parts.length) : (parts.drop n).flatten ≠ [] := by
  intro hNone
  rw [List.drop_eq_getElem_cons hLess, List.flatten_cons, List.append_eq_nil_iff] at hNone
  have hMem : Output.raw parts[n] ∈ parts.map .raw :=
    List.mem_map_of_mem (List.getElem_mem hLess)
  rw [← hParts] at hMem
  obtain ⟨method, -, hPut⟩ := List.mem_map.1 hMem
  exact ne_nil_of_put hPut hNone.1

/-- With a count that is not too great the methods that it counts are read, and the bytes of the
    others are left. -/
theorem ofBytes_header_of_le
    (hParts : store.methods.map (Codec.methodDescriptor store.layout).put = parts.map .raw)
    (hCount : count.toNat ≤ store.methods.length) :
    ofBytes (header store.layout count.toNat ++ parts.flatten) =
      if (parts.drop count.toNat).flatten.length = 0 then
        .ok { store with methods := store.methods.take count.toNat }
      else .error (.trailingBytes (parts.drop count.toNat).flatten.length) := by
  obtain ⟨position, hContents⟩ := readContents_header store.layout count parts.flatten
  have hFirst : (store.methods.take count.toNat).map (Codec.methodDescriptor store.layout).put =
      (parts.take count.toNat).map .raw := by
    rw [List.map_take, hParts, List.map_take]
  have hTimes := (Codec.faithful_methodDescriptor store.layout).times_of_put hFirst position
    (parts.drop count.toNat).flatten
  rw [List.length_take_of_le hCount, ← List.flatten_append, List.take_append_drop] at hTimes
  have hRead := hContents.trans (Read.bind_eq_ok_iff.2 ⟨_, _, hTimes, rfl⟩)
  rw [ofBytes_eq_whole]
  exact Read.whole_of_ok hRead

/-- With a count that is too great the bytes end where a method should begin. -/
theorem ofBytes_header_of_lt
    (hParts : store.methods.map (Codec.methodDescriptor store.layout).put = parts.map .raw)
    (hCount : store.methods.length < count.toNat) :
    ofBytes (header store.layout count.toNat ++ parts.flatten) =
      .error (.unexpectedEnd 2 0) := by
  obtain ⟨position, hContents⟩ := readContents_header store.layout count parts.flatten
  obtain ⟨more, hMore⟩ := Nat.exists_eq_add_of_lt hCount
  have hTimes := (Codec.faithful_methodDescriptor store.layout).times_of_put hParts position []
  rw [List.append_nil] at hTimes
  have hEnd := Read.times_eq_error hTimes (get_nil store.layout _) more
  rw [← Nat.add_assoc, ← hMore] at hEnd
  have hRead := hContents.trans (Read.bind_eq_error_iff.2 (.inl hEnd))
  rw [ofBytes_eq_whole]
  exact Read.whole_of_error hRead

/-- **The count has to be right.**  Of the bytes of a store with another count in the header, a
    greater one makes the bytes end too early, and a smaller one leaves the bytes of the methods
    behind those it counts; only its own count makes them the bytes of the store. -/
theorem ofBytes_recounted {store : ContractStore} {bytes : List UInt8}
    (hBytes : store.toBytes = .ok bytes) :
    ∃ encoded : List (List UInt8),
      store.methods.map (Codec.methodDescriptor store.layout).encode = encoded.map .ok ∧
      ∀ count : UInt32,
        (store.methods.length < count.toNat →
          ofBytes (recounted bytes count) = .error (.unexpectedEnd 2 0)) ∧
        (count.toNat < store.methods.length →
          ofBytes (recounted bytes count) =
            .error (.trailingBytes (encoded.drop count.toNat).flatten.length)) ∧
        (count.toNat = store.methods.length → ofBytes (recounted bytes count) = .ok store) := by
  obtain ⟨-, rest, hBody, rfl⟩ := toBytes_eq_ok_iff.1 hBytes
  obtain ⟨parts, hParts, rfl⟩ := Output.concat_eq_raw_iff.1 hBody
  have hLength : store.methods.length = parts.length := by
    simpa using congrArg List.length hParts
  refine ⟨parts, ?_, fun count => ?_⟩
  · have hEncode := congrArg (List.map Output.toExcept) hParts
    rwa [List.map_map, List.map_map] at hEncode
  · rw [recounted_header]
    refine ⟨ofBytes_header_of_lt hParts, fun hLess => ?_, fun hSame => ?_⟩
    -- The methods that are not read take some bytes, so they are noticed.
    · have hLeft : (parts.drop count.toNat).flatten.length ≠ 0 :=
        mt List.length_eq_zero_iff.1 (flatten_drop_ne_nil hParts (hLength ▸ hLess))
      rw [ofBytes_header_of_le hParts (Nat.le_of_lt hLess), if_neg hLeft]
    · rw [ofBytes_header_of_le hParts (Nat.le_of_eq hSame), hSame,
        List.drop_eq_nil_of_le (Nat.le_of_eq hLength.symm), List.take_length]
      rfl

/-- A store with two methods of different lengths. -/
def twoMethods : ContractStore where
  layout := .tagged
  methods := [⟨⟨"A", none⟩, "x", .isPublic, none⟩, ⟨⟨"B", none⟩, "y", .isPrivate, some ⟨"b.rb", 7⟩⟩]

theorem ofBytes_recounted_twoMethods : ∃ bytes, twoMethods.toBytes = .ok bytes ∧
    ofBytes (recounted bytes 3) = .error (.unexpectedEnd 2 0) ∧
    ofBytes (recounted bytes 1) = .error (.trailingBytes 19) := by
  have hBytes : twoMethods.toBytes = .ok [0x54, 0x54, 0x43, 0x53, 2, 0, 0, 0, 2,
      0, 1, 65, 0, 0, 1, 120, 0, 0,
      0, 1, 66, 0, 0, 1, 121, 1, 1, 0, 4, 98, 46, 114, 98, 0, 0, 0, 7] := by rfl
  obtain ⟨encoded, hEncoded, hCount⟩ := ofBytes_recounted hBytes
  have hParts : encoded.map Except.ok = [.ok [0, 1, 65, 0, 0, 1, 120, 0, 0],
      .ok [0, 1, 66, 0, 0, 1, 121, 1, 1, 0, 4, 98, 46, 114, 98, 0, 0, 0, 7]] :=
    hEncoded.symm
  obtain rfl : encoded = [[0, 1, 65, 0, 0, 1, 120, 0, 0],
      [0, 1, 66, 0, 0, 1, 121, 1, 1, 0, 4, 98, 46, 114, 98, 0, 0, 0, 7]] :=
    (List.map_inj_right fun _ _ => Except.ok.inj).1 hParts
  exact ⟨_, hBytes, (hCount 3).1 (by decide), (hCount 1).2.1 (by decide)⟩

end ContractStore

end Lineage.Wire
