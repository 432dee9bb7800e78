/-
  What each part of a flight does to the keys of a map and to its flights.

  A flight is opened, and it lands: its key is freed unless it brings a value, and then it is said
  what became of it.  The parts are described one by one, for flights that land while others are
  under way and while their key may long belong to another flight.  What they do is all that the
  rest has to know of them: which flight a key belongs to, and what became of each flight.
-/
import Lineage.Flight.Map

namespace Lineage

/-! ## Outcomes -/

/-- The value that an outcome brings, if it does. -/
def Outcome.value? {ν ε : Type} : Outcome ν ε → Option ν
  | .value result => some result
  | .failure _ | .crash => none

/-- What becomes of a flight by the outcome of its leader. -/
def FlightState.ofOutcome {ν ε : Type} : Outcome ν ε → FlightState ν ε
  | .value result => .resolved result
  | .failure error => .failed error
  | .crash => .abandoned

theorem FlightState.ofOutcome_eq_resolved_iff {ν ε : Type} {outcome : Outcome ν ε} {value : ν} :
    ofOutcome outcome = .resolved value ↔ outcome.value? = some value := by
  cases outcome <;> simp [ofOutcome, Outcome.value?]

theorem FlightState.ofOutcome_ne_resolving {ν ε : Type} (outcome : Outcome ν ε) :
    ofOutcome outcome ≠ .resolving := by
  cases outcome <;> simp [ofOutcome]

theorem FlightState.ofOutcome_injective {ν ε : Type} :
    Function.Injective (ofOutcome : Outcome ν ε → FlightState ν ε) := by
  intro one other hSame
  cases one <;> cases other <;> simp_all [ofOutcome]

/-- The value that a flight has brought. -/
def FlightState.value? {ν ε : Type} : FlightState ν ε → Option ν
  | .resolved value => some value
  | .resolving | .failed _ | .abandoned => none

theorem FlightState.value?_eq_some_iff {ν ε : Type} {state : FlightState ν ε} {value : ν} :
    state.value? = some value ↔ state = .resolved value := by
  cases state <;> simp [value?]

namespace FlightMap

variable {κ ν ε : Type}

/-! ## Flights -/

theorem flight_of_length_le {map : FlightMap κ ν ε} {number : Nat}
    (hLe : map.flights.length ≤ number) : map.flight number = .abandoned := by
  rw [flight, List.getElem?_eq_none hLe]
  rfl

theorem flight_settle_self {map : FlightMap κ ν ε} {number : Nat}
    (hLt : number < map.flights.length) (state : FlightState ν ε) :
    (map.settle number state).flight number = state := by
  simp [flight, settle, List.getElem?_set_self hLt]

theorem flight_settle_of_ne (map : FlightMap κ ν ε) {number other : Nat} (hNe : other ≠ number)
    (state : FlightState ν ε) : (map.settle number state).flight other = map.flight other := by
  simp [flight, settle, List.getElem?_set_ne hNe.symm]

/-- Of a flight that is under way, the map knows. -/
theorem lt_length_of_resolving {map : FlightMap κ ν ε} {number : Nat}
    (hResolving : map.flight number = .resolving) : number < map.flights.length := by
  refine Nat.lt_of_not_le fun hLe => ?_
  rw [flight_of_length_le hLe] at hResolving
  cases hResolving

/-- The state of a flight after one was settled, that one or another. -/
theorem flight_settle {map : FlightMap κ ν ε} {number : Nat} (hLt : number < map.flights.length)
    (state : FlightState ν ε) (other : Nat) :
    (map.settle number state).flight other =
      if other = number then state else map.flight other := by
  split
  · rename_i hOther
    rw [hOther, flight_settle_self hLt]
  · rename_i hOther
    exact map.flight_settle_of_ne hOther state

/-- A follower shares what the flight has brought, a value or a failure. -/
theorem follow_eq_shared_iff {map : FlightMap κ ν ε} {number : Nat} {result : Except ε ν} :
    map.follow number = .shared result ↔ map.flight number = .ofOutcome (.ofExcept result) := by
  rw [follow]
  cases map.flight number <;> cases result <;>
    simp [FlightState.ofOutcome, Outcome.ofExcept]

/-- There is nothing to share while a flight is under way, and after a crash. -/
theorem follow_of_forall_ne_shared {map : FlightMap κ ν ε} {number : Nat}
    (hNothing : ∀ result, map.follow number ≠ .shared result) :
    map.follow number = .waiting number := by
  rw [follow] at hNothing ⊢
  cases hFlight : map.flight number with
  | resolving | abandoned => rfl
  | resolved value =>
    rw [hFlight] at hNothing
    exact absurd rfl (hNothing (.ok value))
  | failed error =>
    rw [hFlight] at hNothing
    exact absurd rfl (hNothing (.error error))

variable [DecidableEq κ]

/-! ## Asking -/

/-- A key has the value of its flight. -/
theorem get?_eq_some_iff {map : FlightMap κ ν ε} {key : κ} {value : ν} :
    map.get? key = some value ↔
      ∃ number, map.current.get? key = some number ∧ map.flight number = .resolved value := by
  rw [get?]
  cases hCurrent : map.current.get? key with
  | none => simp
  | some number => cases hFlight : map.flight number <;> simp [hFlight]

theorem get?_eq_none_of_current {map : FlightMap κ ν ε} {key : κ}
    (hCurrent : map.current.get? key = none) : map.get? key = none := by
  rw [get?, hCurrent]
  rfl

/-- A value that is there is shared. -/
theorem resolve_of_get?_eq_some {map : FlightMap κ ν ε} {key : κ} {value : ν}
    (hGet : map.get? key = some value) {σ : Type} (s : σ)
    (resolver : FlightMap κ ν ε → σ → Outcome ν ε × FlightMap κ ν ε × σ) :
    map.resolve key s resolver = (.shared (.ok value), map, s) := by
  obtain ⟨number, hCurrent, hFlight⟩ := get?_eq_some_iff.1 hGet
  simp only [resolve, claim, hCurrent, follow, hFlight]

/-- The map in which a flight for `key` has just been opened. -/
def opened (map : FlightMap κ ν ε) (key : κ) : FlightMap κ ν ε where
  current := map.current.insert key map.flights.length
  flights := map.flights ++ [.resolving]

theorem claim_of_current_eq_none {map : FlightMap κ ν ε} {key : κ}
    (hCurrent : map.current.get? key = none) :
    map.claim key = (.leader map.flights.length, map.opened key) := by
  rw [claim, hCurrent]
  rfl

theorem flight_opened_of_lt (map : FlightMap κ ν ε) (key : κ) {number : Nat}
    (hLt : number < map.flights.length) : (map.opened key).flight number = map.flight number := by
  simp [flight, opened, List.getElem?_append_left hLt]

/-- One leads if and only if the key stood for no flight. -/
theorem claim_eq_leader_iff {map after : FlightMap κ ν ε} {key : κ} {number : Nat} :
    map.claim key = (.leader number, after) ↔
      map.current.get? key = none ∧ number = map.flights.length ∧ after = map.opened key := by
  cases hCurrent : map.current.get? key with
  | none => simp [claim_of_current_eq_none hCurrent, eq_comm]
  | some other => simp [claim, hCurrent]

/-- One follows the flight that the key stands for, and changes nothing. -/
theorem claim_eq_follower_iff {map after : FlightMap κ ν ε} {key : κ} {number : Nat} :
    map.claim key = (.follower number, after) ↔
      map.current.get? key = some number ∧ after = map := by
  cases hCurrent : map.current.get? key with
  | none => simp [claim_of_current_eq_none hCurrent]
  | some other => simp [claim, hCurrent, eq_comm]

theorem current_opened (map : FlightMap κ ν ε) (key other : κ) :
    (map.opened key).current.get? other =
      if other = key then some map.flights.length else map.current.get? other :=
  map.current.get?_insert key other map.flights.length

theorem flight_opened_self (map : FlightMap κ ν ε) (key : κ) :
    (map.opened key).flight map.flights.length = .resolving := by
  simp [flight, opened]

/-- Opening a flight says nothing of the other keys. -/
theorem get?_opened_of_ne {map : FlightMap κ ν ε} {key other : κ}
    (hOpened : ∀ {number}, map.current.get? other = some number → number < map.flights.length)
    (hOther : other ≠ key) : (map.opened key).get? other = map.get? other := by
  rw [get?, get?, current_opened, if_neg hOther]
  cases hCurrent : map.current.get? other with
  | none => rfl
  | some number => simp only [Option.map_some, map.flight_opened_of_lt key (hOpened hCurrent)]

/-- A flight that was just opened brings its key no value yet. -/
theorem get?_opened {map : FlightMap κ ν ε} {key : κ} (hFree : map.current.get? key = none)
    (hOpened : ∀ {other number}, map.current.get? other = some number →
      number < map.flights.length) (other : κ) :
    (map.opened key).get? other = map.get? other := by
  by_cases hOther : other = key
  · subst hOther
    rw [get?_eq_none_of_current hFree, get?, current_opened, if_pos rfl, Option.map_some,
      flight_opened_self]
  · exact get?_opened_of_ne hOpened hOther

/-! ## Landing -/

/-- What a key stands for after a flight was taken out: only this key, and only this flight, is
    affected. -/
theorem current_removeIfCurrent_eq_some_iff {map : FlightMap κ ν ε} {key other : κ}
    {number belongs : Nat} :
    (map.removeIfCurrent key number).current.get? other = some belongs ↔
      map.current.get? other = some belongs ∧ ¬ (other = key ∧ belongs = number) := by
  rw [removeIfCurrent]
  by_cases hOther : other = key
  · subst hOther
    -- The key stands for this flight, or by now for another, which stays.
    split
    · rename_i hCurrent
      rw [OrderedMap.get?_erase_self, hCurrent]
      simp [eq_comm]
    · rename_i hCurrent
      constructor
      · intro hBelongs
        refine ⟨hBelongs, ?_⟩
        rintro ⟨-, rfl⟩
        exact hCurrent hBelongs
      · exact And.left
  · have hErase := map.current.get?_erase_of_ne hOther
    split <;> simp [hOther, hErase]

/-- Taking a flight out of its key does not end it. -/
theorem flights_removeIfCurrent (map : FlightMap κ ν ε) (key : κ) (number : Nat) :
    (map.removeIfCurrent key number).flights = map.flights := by
  rw [removeIfCurrent]
  split <;> rfl

/-- Landing changes what became of one flight. -/
theorem flight_land {map : FlightMap κ ν ε} {number : Nat} (hLt : number < map.flights.length)
    (key : κ) (outcome : Outcome ν ε) (other : Nat) :
    (map.land key number outcome).flight other =
      if other = number then .ofOutcome outcome else map.flight other := by
  have hFreed : (map.removeIfCurrent key number).flight other = map.flight other := by
    rw [flight, flights_removeIfCurrent]
    rfl
  have hLt' : number < (map.removeIfCurrent key number).flights.length := by
    rwa [flights_removeIfCurrent]
  -- A value settles the flight; anything else takes it out of its key first, which leaves the
  -- flights alone.
  cases outcome with
  | value result => exact flight_settle hLt _ other
  | failure _ | crash =>
    rw [land, flight_settle hLt', hFreed]
    rfl

theorem length_flights_land (map : FlightMap κ ν ε) (key : κ) (number : Nat)
    (outcome : Outcome ν ε) :
    (map.land key number outcome).flights.length = map.flights.length := by
  cases outcome <;> simp [land, settle, flights_removeIfCurrent]

/-- Landing frees the key of the flight, if that is still its key and the outcome is no value. -/
theorem current_land_eq_some_iff {map : FlightMap κ ν ε} {key other : κ} {number belongs : Nat}
    {outcome : Outcome ν ε} :
    (map.land key number outcome).current.get? other = some belongs ↔
      map.current.get? other = some belongs ∧
        (outcome.value? = none → ¬ (other = key ∧ belongs = number)) := by
  cases outcome with
  | value result => simp [land, settle, Outcome.value?]
  | failure _ | crash =>
    simpa [land, settle, Outcome.value?] using current_removeIfCurrent_eq_some_iff

/-- **What landing publishes**: the value of the outcome, under the key if that is still the key
    of the flight. -/
theorem get?_land {map : FlightMap κ ν ε} {key : κ} {number : Nat}
    (hResolving : map.flight number = .resolving)
    (hOnly : ∀ other, map.current.get? other = some number → other = key)
    (outcome : Outcome ν ε) (other : κ) :
    (map.land key number outcome).get? other =
      if map.current.get? other = some number then outcome.value? else map.get? other := by
  have hLt := lt_length_of_resolving hResolving
  refine Option.ext fun value => ?_
  rw [get?_eq_some_iff]
  simp only [current_land_eq_some_iff, flight_land hLt]
  -- The key that stands for the flight gets its value; for another key the flight does not matter.
  split
  · rename_i hCurrent
    obtain rfl := hOnly other hCurrent
    constructor
    · rintro ⟨belongs, ⟨hBelongs, -⟩, hFlight⟩
      rw [hCurrent] at hBelongs
      cases hBelongs
      rw [if_pos rfl] at hFlight
      exact FlightState.ofOutcome_eq_resolved_iff.1 hFlight
    · intro hValue
      refine ⟨number, ⟨hCurrent, fun hNone => ?_⟩, ?_⟩
      · rw [hValue] at hNone
        cases hNone
      · rw [if_pos rfl]
        exact FlightState.ofOutcome_eq_resolved_iff.2 hValue
  · rename_i hCurrent
    have hNe : ∀ belongs, map.current.get? other = some belongs → belongs ≠ number := by
      rintro belongs hBelongs rfl
      exact hCurrent hBelongs
    rw [get?_eq_some_iff]
    refine exists_congr fun belongs => ?_
    constructor
    · rintro ⟨⟨hBelongs, -⟩, hFlight⟩
      rw [if_neg (hNe belongs hBelongs)] at hFlight
      exact ⟨hBelongs, hFlight⟩
    · rintro ⟨hBelongs, hFlight⟩
      refine ⟨⟨hBelongs, ?_⟩, ?_⟩
      · rintro - ⟨-, rfl⟩
        exact hNe belongs hBelongs rfl
      · rw [if_neg (hNe belongs hBelongs)]
        exact hFlight

/-! ## Counting -/

/-- The keys that are counted as resolved are those that have a value, each of them once. -/
theorem exists_resolved_keys (map : FlightMap κ ν ε) :
    ∃ keys : List κ, keys.Nodup ∧ (∀ key, key ∈ keys ↔ (map.get? key).isSome) ∧
      map.resolvedCount = keys.length := by
  refine ⟨(map.current.entries.filter fun entry => (map.flight entry.2).value?.isSome).map
    Prod.fst, ?_, ?_, ?_⟩
  · exact (List.filter_sublist.map Prod.fst).nodup map.current.distinct
  · intro key
    simp only [List.mem_map, List.mem_filter, Option.isSome_iff_exists, get?_eq_some_iff,
      OrderedMap.get?_eq_some_iff_mem, FlightState.value?_eq_some_iff]
    constructor
    · rintro ⟨⟨other, number⟩, ⟨hMem, value, hFlight⟩, rfl⟩
      exact ⟨value, number, hMem, hFlight⟩
    · rintro ⟨value, number, hMem, hFlight⟩
      exact ⟨(key, number), ⟨hMem, value, hFlight⟩, rfl⟩
  · rw [List.length_map, ← List.countP_eq_length_filter, resolvedCount, OrderedMap.values,
      List.countP_map]
    refine List.countP_congr fun entry _ => ?_
    rw [Function.comp_apply]
    cases map.flight entry.2 <;> rfl

end FlightMap

end Lineage
