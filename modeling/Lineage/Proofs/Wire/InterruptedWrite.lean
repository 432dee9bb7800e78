/-
  A write that is cut short leaves no store.

  A store is turned into bytes before anything is written, so a store that has no bytes leaves the
  sink as it is.  Otherwise the sink takes the bytes in order as far as it has room.  If it takes
  them all, they are read as the store; if it does not, what it has taken is the beginning of the
  bytes of a store, and that is too short to be one wherever the cut is.  For the bytes of a value
  end where the value ends, and a shorter beginning gets the verdict that bytes are missing
  (`PrefixVerdicts.starved_of_ok`).
-/
import Lineage.Proofs.Wire.StoreFormat
import Lineage.Proofs.Wire.Truncation

namespace Lineage

/-! ## Sinks -/

namespace Device.Sink

variable {room : Nat} {flushFails : Bool} {bytes : List UInt8}

/-- A sink takes as much as it has room for. -/
theorem taken_writeAll :
    (Sink.writeAll { room := some room, flushFails } bytes).2.taken = bytes.take room := by
  simp only [writeAll, List.nil_append]
  split
  · rfl
  · split <;> rfl

/-- A sink without enough room reports that it takes no more. -/
theorem writeAll_of_lt (hRoom : room < bytes.length) :
    (Sink.writeAll { room := some room, flushFails } bytes).1 = .error .writeZero := by
  have hShort : (bytes.take room).length < bytes.length := by
    rw [List.length_take]
    omega
  simp only [writeAll, if_pos hShort]

/-- With enough room all depends on the flush. -/
theorem writeAll_of_le (hRoom : bytes.length ≤ room) :
    (Sink.writeAll { room := some room, flushFails } bytes).1 =
      if flushFails then .error .brokenPipe else .ok () := by
  have hAll : ¬ (bytes.take room).length < bytes.length := by
    rw [List.take_of_length_le hRoom]
    exact Nat.lt_irrefl _
  simp only [writeAll, if_neg hAll]
  split <;> rfl

end Device.Sink

namespace Wire

/-! ## Bytes that are cut short -/

variable {α : Type}

/-- If all the bytes are those of a value, then less of them is too short. -/
theorem PrefixVerdicts.starved_of_ok {decode : List UInt8 → Except DecodeError α}
    {bytes : List UInt8} (hVerdicts : PrefixVerdicts decode bytes) {value : α}
    (hDecode : decode bytes = .ok value) {n : Nat} (hLess : n < bytes.length) :
    Starved (decode (bytes.take n)) := by
  rw [← List.take_length (l := bytes)] at hDecode
  cases hVerdicts with
  | starved hStarved => exact hStarved n (Nat.le_of_lt hLess)
  | accepted cut value' hCut hStarved hValue hTrailing =>
    rcases Nat.eq_or_lt_of_le hCut with rfl | hBefore
    · exact hStarved n hLess
    · have hError := hTrailing bytes.length hBefore (Nat.le_refl _)
      rw [hDecode] at hError
      cases hError
  | refused cut error hCut hStarved hError hRefused =>
    have hSame := hRefused bytes.length hCut (Nat.le_refl _)
    rw [hDecode] at hSame
    cases hSame

namespace ContractStore

variable {store : ContractStore} {bytes : List UInt8}

/-- The bytes of a store are read as that store. -/
theorem ofBytes_of_toBytes (hBytes : store.toBytes = .ok bytes) : ofBytes bytes = .ok store :=
  ofBytes_eq_ok_iff.2 (toBytes_eq_ok_iff.1 hBytes)

/-- The beginning of the bytes of a store is no store. -/
theorem starved_ofBytes_take (hBytes : store.toBytes = .ok bytes) {n : Nat}
    (hLess : n < bytes.length) : Starved (ofBytes (bytes.take n)) := by
  have hVerdicts := prompt_readContents.prefixVerdicts bytes
  rw [← ofBytes_eq_whole] at hVerdicts
  exact hVerdicts.starved_of_ok (ofBytes_of_toBytes hBytes) hLess

theorem writeTo_of_toBytes (hBytes : store.toBytes = .ok bytes) (sink : Device.Sink) :
    store.writeTo sink =
      ((sink.writeAll bytes).1.mapError .device, (sink.writeAll bytes).2) := by
  rw [writeTo, hBytes]

/-- **An interrupted write is never mistaken for a store**, whatever the store and wherever the sink
    stops to take bytes.  A store without bytes leaves nothing and is refused for its own reason.
    A sink that is too small reports it, and holds the first bytes of the store, which are too few
    to be read as a store.  Any other sink holds all the bytes; the write then succeeds if the flush
    does, and the bytes are read as an equal store.  A stream that ends in a fault is never read as
    a store. -/
theorem writeTo_outcome (store : ContractStore) (room : Nat) (flushFails : Bool) :
    let outcome := store.writeTo { room := some room, flushFails }
    (∀ error, store.toBytes = .error error →
      outcome.1 = .error (.encode error) ∧ outcome.2.taken = []) ∧
    (∀ bytes, store.toBytes = .ok bytes →
      (room < bytes.length →
        outcome.1 = .error (.device .writeZero) ∧ outcome.2.taken = bytes.take room ∧
          ∃ needed remaining, remaining < needed ∧
            ofBytes outcome.2.taken = .error (.unexpectedEnd needed remaining)) ∧
      (bytes.length ≤ room →
        outcome.2.taken = bytes ∧ (outcome.1 = .ok () ↔ flushFails = false) ∧
          readFrom outcome.2.taken none = .ok store)) ∧
    ∀ first fault, readFrom first (some fault) = .error (.device fault) := by
  intro outcome
  refine ⟨fun error hError => ?_, fun bytes hBytes => ?_, fun first fault => rfl⟩
  · have hOutcome : outcome = (.error (.encode error), { room := some room, flushFails }) := by
      show store.writeTo _ = _
      rw [writeTo, hError]
    rw [hOutcome]
    exact ⟨rfl, rfl⟩
  · have hOutcome : outcome = _ := writeTo_of_toBytes hBytes { room := some room, flushFails }
    rw [hOutcome, Device.Sink.taken_writeAll]
    refine ⟨fun hShort => ?_, fun hAll => ?_⟩
    -- What was taken is a proper prefix of the bytes of a store, and so too short to be one.
    · obtain ⟨needed, remaining, hStarved, hFew⟩ := starved_ofBytes_take hBytes hShort
      rw [Device.Sink.writeAll_of_lt hShort]
      exact ⟨rfl, rfl, needed, remaining, hFew, hStarved⟩
    · rw [Device.Sink.writeAll_of_le hAll, List.take_of_length_le hAll]
      refine ⟨rfl, ?_, ?_⟩
      · cases flushFails <;> simp [Except.mapError]
      · rw [readFrom, ofBytes_of_toBytes hBytes]
        rfl

end ContractStore

end Wire

end Lineage
