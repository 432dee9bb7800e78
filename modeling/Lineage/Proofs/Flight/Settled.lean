/-
  Flight maps at rest.

  While nobody leads a flight, a key of the map belongs to a flight that brought a value: flights
  that failed or crashed have freed their keys.  A map in that state is as good as the partial map
  `get?`, and asking for a key does one of two things:

      a value is there     it is shared, and neither the map nor the asker's state changes;
      no value is there    the resolver runs once, and the map is at rest again with its value
                           under the key, or with nothing there if it brought none.
-/
import Lineage.Proofs.Flight.Landing

namespace Lineage

namespace FlightMap

variable {κ ν ε σ : Type} [DecidableEq κ]

/-! ## The state of rest -/

/-- **At rest**: each key belongs to a flight that brought a value. -/
def Settled (map : FlightMap κ ν ε) : Prop :=
  ∀ key number, map.current.get? key = some number → ∃ value, map.flight number = .resolved value

theorem settled_empty : (empty : FlightMap κ ν ε).Settled := by
  intro key number hCurrent
  cases hCurrent

theorem settled_clear (map : FlightMap κ ν ε) : map.clear.Settled := by
  intro key number hCurrent
  cases hCurrent

@[simp] theorem get?_clear (map : FlightMap κ ν ε) (key : κ) : map.clear.get? key = none := rfl

namespace Settled

variable {map : FlightMap κ ν ε} {key : κ}

/-- At rest a key without a value belongs to no flight. -/
theorem current_of_get?_eq_none (hSettled : map.Settled) (hGet : map.get? key = none) :
    map.current.get? key = none := by
  cases hCurrent : map.current.get? key with
  | none => rfl
  | some number =>
    obtain ⟨value, hFlight⟩ := hSettled key number hCurrent
    have hSome := get?_eq_some_iff.2 ⟨number, hCurrent, hFlight⟩
    rw [hGet] at hSome
    cases hSome

/-- The flights that keys belong to have been opened. -/
theorem lt_length (hSettled : map.Settled) {number : Nat}
    (hCurrent : map.current.get? key = some number) : number < map.flights.length := by
  obtain ⟨value, hFlight⟩ := hSettled key number hCurrent
  refine Nat.lt_of_not_le fun hLe => ?_
  rw [flight_of_length_le hLe] at hFlight
  cases hFlight

/-- **At rest a key is resolved or free**: no flight is under way. -/
theorem state_eq (hSettled : map.Settled) (key : κ) :
    map.state key = if (map.get? key).isSome then .resolved else .unresolved := by
  rw [state, get?]
  cases hCurrent : map.current.get? key with
  | none => rfl
  | some number =>
    obtain ⟨value, hFlight⟩ := hSettled key number hCurrent
    rw [Option.map_some, hFlight]
    rfl

/-- A key that is free has no value. -/
theorem get?_of_unresolved (hSettled : map.Settled) (hFree : map.state key = .unresolved) :
    map.get? key = none := by
  rw [hSettled.state_eq] at hFree
  cases hGet : map.get? key with
  | none => rfl
  | some value =>
    rw [hGet] at hFree
    cases hFree

end Settled

/-! ## One flight, opened and landed -/

/-- **A flight from rest to rest.**  Of its own key the map then says what the outcome brought,
    of the others what it said before. -/
theorem Settled.land_opened {map : FlightMap κ ν ε} (hSettled : map.Settled) (key : κ)
    (outcome : Outcome ν ε) :
    ((map.opened key).land key map.flights.length outcome).Settled ∧
      ∀ other, ((map.opened key).land key map.flights.length outcome).get? other =
        if other = key then outcome.value? else map.get? other := by
  have hResolving := map.flight_opened_self key
  -- The keys at rest belong to flights that were opened before this one.
  have hBelongs : ∀ other, (map.opened key).current.get? other = some map.flights.length ↔
      other = key := by
    intro other
    rw [current_opened]
    split
    · rename_i hOther
      exact iff_of_true rfl hOther
    · rename_i hOther
      refine iff_of_false (fun hCurrent => ?_) hOther
      exact Nat.lt_irrefl _ (hSettled.lt_length hCurrent)
  constructor
  · intro other number hCurrent
    obtain ⟨hOpened, hKept⟩ := current_land_eq_some_iff.1 hCurrent
    rw [flight_land (lt_length_of_resolving hResolving)]
    split
    · rename_i hNumber
      subst hNumber
      cases hValue : outcome.value? with
      | none => exact absurd ⟨(hBelongs other).1 hOpened, rfl⟩ (hKept hValue)
      | some value => exact ⟨value, FlightState.ofOutcome_eq_resolved_iff.2 hValue⟩
    · rename_i hNumber
      rw [current_opened] at hOpened
      split at hOpened
      · exact absurd (Option.some.inj hOpened).symm hNumber
      · rw [map.flight_opened_of_lt key (hSettled.lt_length hOpened)]
        exact hSettled other number hOpened
  · intro other
    rw [get?_land hResolving (fun other hCurrent => (hBelongs other).1 hCurrent)]
    simp only [hBelongs]
    split
    · rfl
    · rename_i hOther
      exact get?_opened_of_ne hSettled.lt_length hOther

/-! ## Asking -/

/-- **Where there is no value the resolver runs**, here one that leaves the map alone. -/
theorem Settled.resolve_of_get?_eq_none {map : FlightMap κ ν ε} (hSettled : map.Settled)
    {key : κ} (hGet : map.get? key = none) (s : σ) (run : σ → Outcome ν ε × σ) :
    ∃ after : FlightMap κ ν ε,
      map.resolve key s (fun map s => ((run s).1, map, (run s).2)) =
          (.ran (run s).1, after, (run s).2) ∧
        after.Settled ∧
        ∀ other, after.get? other = if other = key then (run s).1.value? else map.get? other := by
  have hClaim := claim_of_current_eq_none (hSettled.current_of_get?_eq_none hGet)
  refine ⟨(map.opened key).land key map.flights.length (run s).1, ?_,
    hSettled.land_opened key (run s).1⟩
  simp only [resolve, hClaim]

/-- A flight that was opened and has landed comes last. -/
theorem flights_land_opened (map : FlightMap κ ν ε) (key : κ) (outcome : Outcome ν ε) :
    ((map.opened key).land key map.flights.length outcome).flights =
      map.flights ++ [.ofOutcome outcome] := by
  cases outcome <;>
    simp [land, settle, flights_removeIfCurrent, opened, FlightState.ofOutcome]

/-- **A resolver that runs adds one flight**, with its outcome. -/
theorem Settled.flights_resolve {map : FlightMap κ ν ε} (hSettled : map.Settled) {key : κ}
    (hGet : map.get? key = none) (s : σ) (run : σ → Outcome ν ε × σ) :
    (map.resolve key s fun map s => ((run s).1, map, (run s).2)).2.1.flights =
      map.flights ++ [.ofOutcome (run s).1] := by
  have hClaim := claim_of_current_eq_none (hSettled.current_of_get?_eq_none hGet)
  simp only [resolve, hClaim]
  exact map.flights_land_opened key (run s).1

end FlightMap

end Lineage
