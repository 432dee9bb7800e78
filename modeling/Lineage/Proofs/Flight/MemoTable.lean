/-
  A flight map is a memo table, also for resolvers that use it while they run.

  1. **Specification.**  A memo table is a partial map from keys to values.  Who asks for a key that
     has a value gets it; for any other key the resolver runs.  It may do anything to the table, and
     when it has ended its value is published if the key has not been forgotten SINCE IT WAS ASKED
     FOR; a failure or a crash publishes nothing.  The table counts how often each key has been
     forgotten, and that is all it takes to tell: there are no slots, and nothing to compare.

  2. **The invariant (`Tracks`).**  Flights that are under way are nested, and a key that was
     forgotten and asked for again has several of them.  A flight is worth its value to the table if
     and only if the key still belongs to it in the map; each flight knows how often its key had
     been forgotten when it was claimed, and the key still belongs to it exactly if that number has
     not changed.

  3. **The run.**  Every step keeps the two in step and gives one answer in both (`run_tracks`, by
     induction on the nesting of the steps).  When all flights have landed the map is at rest, and
     says of every key what the table says.

  A crash inside a resolver ends the flight of that resolver only; whether the resolver around it
  goes on or crashes too is said by its own steps and its own outcome.  Who asks for a key whose own
  flight is under way and has not been forgotten gets no answer from the map; so the table says.
-/
import Lineage.Flight.Scenario
import Lineage.Proofs.Flight.Landing

namespace Lineage

/-! ## Steps of one caller -/

namespace FlightStep

variable {κ ν ε : Type}

mutual

/-- Nobody else asks for a key, neither now nor while a flight of this step is under way. -/
def alone : FlightStep κ ν ε → Bool
  | .resolve _ during _ => allAlone during
  | .follow _ _ => false
  | .get _ | .state _ | .remove _ | .clear => true

/-- No use follows the flight of another caller, at any depth. -/
def allAlone : List (FlightStep κ ν ε) → Bool
  | [] => true
  | step :: rest => step.alone && allAlone rest

end

/-! ### Asking, case by case -/

variable [DecidableEq κ] {map : FlightMap κ ν ε} {key : κ}

/-- A key with a value is not resolved again. -/
theorem run_resolve_of_value {value : ν} (hValue : map.get? key = some value)
    (during : List (FlightStep κ ν ε)) (outcome : Outcome ν ε) :
    run ⟨map, []⟩ (.resolve key during outcome) =
      (.resolution (.shared (.ok value)) [] [], ⟨map, []⟩) := by
  rw [run, FlightMap.resolve_of_get?_eq_some hValue]
  rfl

theorem run_resolve_of_resolving {number : Nat} (hCurrent : map.current.get? key = some number)
    (hResolving : map.flight number = .resolving) (during : List (FlightStep κ ν ε))
    (outcome : Outcome ν ε) :
    run ⟨map, []⟩ (.resolve key during outcome) =
      (.resolution (.waiting number) [] [], ⟨map, []⟩) := by
  simp only [run, FlightMap.resolve, FlightMap.claim, hCurrent, FlightMap.follow, hResolving,
    Follower.wakeAll]

/-- A free key is resolved: the resolver runs on the opened map, and its flight lands in what it
    left. -/
theorem run_resolve_of_free (hFree : map.current.get? key = none)
    {during : List (FlightStep κ ν ε)} {answers : List (FlightAnswer ν ε × Nat)}
    {after : FlightMap κ ν ε}
    (hDuring : runAll ⟨map.opened key, []⟩ during = (answers, ⟨after, []⟩))
    (outcome : Outcome ν ε) :
    run ⟨map, []⟩ (.resolve key during outcome) =
      (.resolution (.ran outcome) answers [],
        ⟨after.land key map.flights.length outcome, []⟩) := by
  simp only [run, FlightMap.resolve, FlightMap.claim_of_current_eq_none hFree, hDuring,
    Follower.wakeAll]

end FlightStep

/-! ## Memo tables -/

/-- A flight that is under way. -/
structure Claimed (κ : Type) where
  key : κ
  /-- The number of flights that were claimed before. -/
  number : Nat
  /-- How often the key had been forgotten when it was asked for. -/
  forgotten : Nat

/-- A partial map, with what it needs to know of the resolvers that are running. -/
structure MemoTable (κ ν : Type) where
  /-- The partial map. -/
  values : OrderedMap κ ν := .empty
  /-- How often each key has been forgotten. -/
  forgotten : κ → Nat := fun _ => 0
  /-- The flights under way, the innermost one first. -/
  underway : List (Claimed κ) := []
  /-- The number of flights that were ever claimed. -/
  claims : Nat := 0

namespace MemoTable

variable {κ ν ε : Type} [DecidableEq κ]

/-- The flight under way for a key that has not been forgotten since. -/
def awaited (table : MemoTable κ ν) (key : κ) : Option Nat :=
  (table.underway.find? fun claimed =>
    claimed.key = key ∧ claimed.forgotten = table.forgotten key).map (·.number)

/-- How far a key has come: it has a value, a resolver of it runs, or neither. -/
def state (table : MemoTable κ ν) (key : κ) : EntryState :=
  if (table.values.get? key).isSome then .resolved
  else if (table.awaited key).isSome then .resolving
  else .unresolved

/-- A resolver starts. It notes how often its key has been forgotten up to now. -/
def claim (table : MemoTable κ ν) (key : κ) : MemoTable κ ν :=
  { table with
    underway := ⟨key, table.claims, table.forgotten key⟩ :: table.underway
    claims := table.claims + 1 }

/-- Give the key what an outcome brings, if it has not been forgotten since `forgotten` times. -/
def publish (table : MemoTable κ ν) (key : κ) (forgotten : Nat) : Outcome ν ε → MemoTable κ ν
  | .value result =>
    if table.forgotten key = forgotten then { table with values := table.values.insert key result }
    else table
  | .failure _ | .crash => table

/-- Forget one key. -/
def remove (table : MemoTable κ ν) (key : κ) : MemoTable κ ν :=
  { table with
    values := table.values.erase key
    forgotten := fun other =>
      if other = key then table.forgotten other + 1 else table.forgotten other }

/-- Forget every key. -/
def clear (table : MemoTable κ ν) : MemoTable κ ν :=
  { table with values := .empty, forgotten := fun key => table.forgotten key + 1 }

mutual

/-- One step of a caller.  Who asks for a key whose flight is under way and has not been forgotten
    can only wait for that flight. -/
def run (table : MemoTable κ ν) : FlightStep κ ν ε → FlightAnswer ν ε × MemoTable κ ν
  | .resolve key during outcome =>
    match table.values.get? key with
    | some value => (.resolution (.shared (.ok value)) [] [], table)
    | none =>
      match table.awaited key with
      | some number => (.resolution (.waiting number) [] [], table)
      | none =>
        let (answers, after) := runAll (table.claim key) during
        (.resolution (.ran outcome) answers [],
          { after.publish key (table.forgotten key) outcome with underway := table.underway })
  | .follow _ _ => (.later, table)
  | .get key => (.value (table.values.get? key), table)
  | .state key => (.state (table.state key), table)
  | .remove key => (.nothing, table.remove key)
  | .clear => (.nothing, table.clear)

/-- Each answer comes with the number of values after its step. -/
def runAll (table : MemoTable κ ν) :
    List (FlightStep κ ν ε) → List (FlightAnswer ν ε × Nat) × MemoTable κ ν
  | [] => ([], table)
  | step :: rest =>
    let (answer, table) := run table step
    let (answers, last) := runAll table rest
    ((answer, table.values.size) :: answers, last)

end

end MemoTable

/-! ## The map and the table in step -/

namespace MemoTable

variable {κ ν ε : Type} [DecidableEq κ]

/-- The map says of every key what the table says, and knows which flights still have their key. -/
structure Tracks (map : FlightMap κ ν ε) (table : MemoTable κ ν) : Prop where
  claims : table.claims = map.flights.length
  values : ∀ key, map.get? key = table.values.get? key
  /-- A key belongs to a flight that brought a value, or to one that is under way. -/
  current : ∀ key number, map.current.get? key = some number →
    (∃ value, map.flight number = .resolved value) ∨
      ∃ claimed ∈ table.underway, claimed.key = key ∧ claimed.number = number
  resolving : ∀ claimed ∈ table.underway, map.flight claimed.number = .resolving
  /-- A key still belongs to a flight exactly if it has not been forgotten since. -/
  belongs : ∀ claimed ∈ table.underway,
    map.current.get? claimed.key = some claimed.number ↔
      claimed.forgotten = table.forgotten claimed.key
  past : ∀ claimed ∈ table.underway, claimed.forgotten ≤ table.forgotten claimed.key
  distinct : (table.underway.map (·.number)).Nodup

namespace Tracks

variable {map : FlightMap κ ν ε} {table : MemoTable κ ν} {key : κ}

/-- A new map tracks the empty table. -/
theorem fresh : Tracks (.empty : FlightMap κ ν ε) ({} : MemoTable κ ν) where
  claims := rfl
  values _ := rfl
  current := by
    intro key number hCurrent
    cases hCurrent
  resolving := List.forall_mem_nil _
  belongs := List.forall_mem_nil _
  past := List.forall_mem_nil _
  distinct := List.nodup_nil

/-! ### Asking -/

/-- The flight that one would wait for is the one that the key belongs to. -/
theorem awaited_eq_some_iff (hTracks : Tracks map table) {number : Nat} :
    table.awaited key = some number ↔
      map.current.get? key = some number ∧ map.flight number = .resolving := by
  rw [awaited, Option.map_eq_some_iff]
  constructor
  · rintro ⟨claimed, hFind, rfl⟩
    have hMem := List.mem_of_find?_eq_some hFind
    have hFound := List.find?_some hFind
    obtain ⟨rfl, hForgotten⟩ : claimed.key = key ∧ claimed.forgotten = table.forgotten key := by
      simpa using hFound
    exact ⟨(hTracks.belongs claimed hMem).2 hForgotten, hTracks.resolving claimed hMem⟩
  · rintro ⟨hCurrent, hResolving⟩
    rcases hTracks.current key number hCurrent with ⟨value, hResolved⟩ | ⟨claimed, hMem, rfl, rfl⟩
    · rw [hResolving] at hResolved
      cases hResolved
    · have hForgotten := (hTracks.belongs claimed hMem).1 hCurrent
      obtain ⟨found, hFind⟩ : ∃ found, table.underway.find? (fun other =>
          other.key = claimed.key ∧ other.forgotten = table.forgotten claimed.key) =
            some found := by
        rw [← Option.isSome_iff_exists, List.find?_isSome]
        exact ⟨claimed, hMem, by simp [hForgotten]⟩
      refine ⟨found, hFind, ?_⟩
      -- Any flight that is found is one that the key belongs to, and a key belongs to one only.
      have hFound := List.find?_some hFind
      obtain ⟨hKey, hSince⟩ : found.key = claimed.key ∧
          found.forgotten = table.forgotten claimed.key := by
        simpa using hFound
      have hBelongs := (hTracks.belongs found (List.mem_of_find?_eq_some hFind)).2
        (by rw [hKey]; exact hSince)
      rw [hKey, hCurrent] at hBelongs
      exact (Option.some.inj hBelongs).symm

/-- A key with neither a value nor a flight to wait for belongs to no flight. -/
theorem current_eq_none (hTracks : Tracks map table) (hValue : table.values.get? key = none)
    (hAwaited : table.awaited key = none) : map.current.get? key = none := by
  cases hCurrent : map.current.get? key with
  | none => rfl
  | some number =>
    rcases hTracks.current key number hCurrent with ⟨value, hResolved⟩ | ⟨claimed, hMem, -, rfl⟩
    · have hGet := FlightMap.get?_eq_some_iff.2 ⟨number, hCurrent, hResolved⟩
      rw [hTracks.values, hValue] at hGet
      cases hGet
    · have hSome := hTracks.awaited_eq_some_iff.2 ⟨hCurrent, hTracks.resolving claimed hMem⟩
      rw [hAwaited] at hSome
      cases hSome

/-- Map and table agree on how far a key has come. -/
theorem state_eq (hTracks : Tracks map table) (key : κ) : map.state key = table.state key := by
  rw [MemoTable.state, FlightMap.state]
  -- A key stands for no flight, for a resolved one, or for one under way.
  cases hCurrent : map.current.get? key with
  | none =>
    have hValue : table.values.get? key = none := by
      rw [← hTracks.values, FlightMap.get?_eq_none_of_current hCurrent]
    have hAwaited : table.awaited key = none := by
      cases hAwaited : table.awaited key with
      | none => rfl
      | some number =>
        rw [(hTracks.awaited_eq_some_iff.1 hAwaited).1] at hCurrent
        cases hCurrent
    rw [hValue, hAwaited]
    rfl
  | some number =>
    rcases hTracks.current key number hCurrent with ⟨value, hResolved⟩ | ⟨claimed, hMem, -, rfl⟩
    · have hValue : table.values.get? key = some value := by
        rw [← hTracks.values]
        exact FlightMap.get?_eq_some_iff.2 ⟨number, hCurrent, hResolved⟩
      rw [hValue, Option.map_some, hResolved]
      rfl
    · have hResolving := hTracks.resolving claimed hMem
      have hValue : table.values.get? key = none := by
        rw [← hTracks.values, FlightMap.get?, hCurrent, Option.map_some, hResolving]
      rw [hValue, hTracks.awaited_eq_some_iff.2 ⟨hCurrent, hResolving⟩, Option.map_some, hResolving]
      rfl

/-! ### Changing -/

/-- The flights that keys belong to have been opened. -/
theorem lt_length (hTracks : Tracks map table) {number : Nat}
    (hCurrent : map.current.get? key = some number) : number < map.flights.length := by
  refine Nat.lt_of_not_le fun hLe => ?_
  have hOver := FlightMap.flight_of_length_le hLe
  rcases hTracks.current key number hCurrent with ⟨value, hResolved⟩ | ⟨claimed, hMem, -, rfl⟩
  · rw [hOver] at hResolved
    cases hResolved
  · rw [hTracks.resolving claimed hMem] at hOver
    cases hOver

/-- They still agree after a free key was claimed. -/
theorem claim (hTracks : Tracks map table) (hFree : map.current.get? key = none) :
    Tracks (map.opened key) (table.claim key) := by
  have hLt : ∀ claimed ∈ table.underway, claimed.number < map.flights.length :=
    fun claimed hMem => FlightMap.lt_length_of_resolving (hTracks.resolving claimed hMem)
  -- Field by field; the new flight has a number that was not given out before.
  refine ⟨?_, ?_, ?_, ?_, ?_, ?_, ?_⟩
  · show table.claims + 1 = (map.opened key).flights.length
    rw [hTracks.claims, FlightMap.opened, List.length_append, List.length_singleton]
  · intro other
    show (map.opened key).get? other = table.values.get? other
    rw [FlightMap.get?_opened hFree hTracks.lt_length, hTracks.values]
  · intro other number hCurrent
    rw [FlightMap.current_opened] at hCurrent
    split at hCurrent
    · rename_i hOther
      cases hCurrent
      exact .inr ⟨_, List.mem_cons_self, hOther.symm, hTracks.claims⟩
    · rcases hTracks.current other number hCurrent with
        ⟨value, hResolved⟩ | ⟨claimed, hMem, hClaimed⟩
      · refine .inl ⟨value, ?_⟩
        rw [FlightMap.flight_opened_of_lt _ _ (hTracks.lt_length hCurrent), hResolved]
      · exact .inr ⟨claimed, List.mem_cons_of_mem _ hMem, hClaimed⟩
  · refine List.forall_mem_cons.2 ⟨?_, fun claimed hMem => ?_⟩
    · show (map.opened key).flight table.claims = .resolving
      rw [hTracks.claims, FlightMap.flight_opened_self]
    · rw [FlightMap.flight_opened_of_lt _ _ (hLt claimed hMem), hTracks.resolving claimed hMem]
  · refine List.forall_mem_cons.2 ⟨?_, fun claimed hMem => ?_⟩
    · show (map.opened key).current.get? key = some table.claims ↔ _
      rw [hTracks.claims, FlightMap.current_opened, if_pos rfl]
      exact iff_of_true rfl rfl
    · show _ ↔ claimed.forgotten = table.forgotten claimed.key
      rw [← hTracks.belongs claimed hMem, FlightMap.current_opened]
      split
      · -- The key belonged to no flight, and so not to this one; now it belongs to the new one.
        rename_i hKey
        have hNe : map.flights.length ≠ claimed.number := Nat.ne_of_gt (hLt claimed hMem)
        rw [hKey, hFree]
        simp [hNe]
      · exact Iff.rfl
  · exact List.forall_mem_cons.2 ⟨Nat.le_refl _, hTracks.past⟩
  · show (table.claims :: table.underway.map (·.number)).Nodup
    refine List.nodup_cons.2 ⟨fun hMem => ?_, hTracks.distinct⟩
    obtain ⟨claimed, hMem, hNumber⟩ := List.mem_map.1 hMem
    have := hLt claimed hMem
    have := hTracks.claims
    omega

theorem publish_forgotten (table : MemoTable κ ν) (key : κ) (since : Nat) (outcome : Outcome ν ε) :
    (table.publish key since outcome).forgotten = table.forgotten := by
  cases outcome with
  | value result =>
    rw [publish]
    split <;> rfl
  | failure _ | crash => rfl

theorem publish_claims (table : MemoTable κ ν) (key : κ) (since : Nat) (outcome : Outcome ν ε) :
    (table.publish key since outcome).claims = table.claims := by
  cases outcome with
  | value result =>
    rw [publish]
    split <;> rfl
  | failure _ | crash => rfl

/-- A key without a value has the value of the outcome afterwards, if it was not forgotten. -/
theorem get?_publish {table : MemoTable κ ν} {key : κ} {since : Nat} {outcome : Outcome ν ε}
    (other : κ) (hNone : table.forgotten key = since → table.values.get? key = none) :
    (table.publish key since outcome).values.get? other =
      if other = key ∧ table.forgotten key = since then outcome.value?
      else table.values.get? other := by
  cases outcome with
  | value result =>
    rw [publish]
    by_cases hSince : table.forgotten key = since
    · simp only [hSince, if_true, and_true, Outcome.value?]
      exact table.values.get?_insert key other result
    · simp only [hSince, if_false, and_false]
  | failure _ | crash =>
    rw [publish]
    split
    · rename_i hOther
      rw [hOther.1, hNone hOther.2]
      rfl
    · rfl

/-- **Landing keeps the two in step**: the map gives the key its value where the flight is still
    its own, the table where it has not been forgotten. -/
theorem land (hTracks : Tracks map table) {claimed : Claimed κ} {rest : List (Claimed κ)}
    (hUnderway : table.underway = claimed :: rest) (outcome : Outcome ν ε) :
    Tracks (map.land claimed.key claimed.number outcome)
      { table.publish claimed.key claimed.forgotten outcome with underway := rest } := by
  have hMem : claimed ∈ table.underway := by rw [hUnderway]; exact List.mem_cons_self
  have hRest : ∀ other ∈ rest, other ∈ table.underway := by
    intro other hOther
    rw [hUnderway]
    exact List.mem_cons_of_mem _ hOther
  have hResolving := hTracks.resolving claimed hMem
  have hLt := FlightMap.lt_length_of_resolving hResolving
  have hDistinct := hTracks.distinct
  rw [hUnderway, List.map_cons, List.nodup_cons] at hDistinct
  have hNe : ∀ other ∈ rest, other.number ≠ claimed.number := by
    intro other hOther hNumber
    exact hDistinct.1 (List.mem_map.2 ⟨other, hOther, hNumber⟩)
  -- A flight under way belongs to the key of its resolver and to no other.
  have hOnly : ∀ other, map.current.get? other = some claimed.number → other = claimed.key := by
    intro other hCurrent
    rcases hTracks.current other _ hCurrent with ⟨value, hResolved⟩ | ⟨found, hFound, rfl, hNumber⟩
    · rw [hResolving] at hResolved
      cases hResolved
    · rw [hUnderway] at hFound
      rcases List.mem_cons.1 hFound with rfl | hFound
      · rfl
      · exact absurd hNumber (hNe found hFound)
  have hBelongs := hTracks.belongs claimed hMem
  refine ⟨?_, ?_, ?_, ?_, ?_, ?_, hDistinct.2⟩
  · show (table.publish _ _ outcome).claims = _
    rw [publish_claims, FlightMap.length_flights_land, hTracks.claims]
  · intro other
    show _ = (table.publish _ _ outcome).values.get? other
    have hNone : table.forgotten claimed.key = claimed.forgotten →
        table.values.get? claimed.key = none := by
      intro hSince
      rw [← hTracks.values, FlightMap.get?, hBelongs.2 hSince.symm, Option.map_some, hResolving]
    rw [FlightMap.get?_land hResolving hOnly, get?_publish other hNone, hTracks.values]
    -- The flight still belongs to its key if and only if the key was not forgotten meanwhile; on
    -- the other side this is what the count says.
    have hStill : map.current.get? other = some claimed.number ↔
        other = claimed.key ∧ table.forgotten claimed.key = claimed.forgotten := by
      constructor
      · intro hCurrent
        obtain rfl := hOnly other hCurrent
        exact ⟨rfl, (hBelongs.1 hCurrent).symm⟩
      · rintro ⟨rfl, hSince⟩
        exact hBelongs.2 hSince.symm
    simp only [hStill]
  · intro other number hCurrent
    obtain ⟨hCurrent, hKept⟩ := FlightMap.current_land_eq_some_iff.1 hCurrent
    rw [FlightMap.flight_land hLt]
    by_cases hNumber : number = claimed.number
    · subst hNumber
      rw [if_pos rfl]
      cases hValue : outcome.value? with
      | none => exact absurd ⟨hOnly other hCurrent, rfl⟩ (hKept hValue)
      | some value => exact .inl ⟨value, FlightState.ofOutcome_eq_resolved_iff.2 hValue⟩
    · rw [if_neg hNumber]
      rcases hTracks.current other number hCurrent with hResolved | ⟨found, hFound, hKey, hFlight⟩
      · exact .inl hResolved
      · rw [hUnderway] at hFound
        rcases List.mem_cons.1 hFound with rfl | hFound
        · exact absurd hFlight.symm hNumber
        · exact .inr ⟨found, hFound, hKey, hFlight⟩
  · intro other hOther
    rw [FlightMap.flight_land hLt, if_neg (hNe other hOther)]
    exact hTracks.resolving other (hRest other hOther)
  · intro other hOther
    show _ ↔ other.forgotten = (table.publish _ _ outcome).forgotten other.key
    rw [publish_forgotten, ← hTracks.belongs other (hRest other hOther),
      FlightMap.current_land_eq_some_iff]
    exact and_iff_left fun _ hBoth => hNe other hOther hBoth.2
  · intro other hOther
    show other.forgotten ≤ (table.publish _ _ outcome).forgotten other.key
    rw [publish_forgotten]
    exact hTracks.past other (hRest other hOther)

/-- What forgets keys keeps the two in step, if a forgotten key belongs to no flight any more and
    the number of times it was forgotten has grown. -/
theorem forget (hTracks : Tracks map table) {map' : FlightMap κ ν ε} {table' : MemoTable κ ν}
    (hFlights : map'.flights = map.flights) (hUnderway : table'.underway = table.underway)
    (hClaims : table'.claims = table.claims)
    (hKeys : ∀ key, (map'.current.get? key = none ∧ table'.values.get? key = none ∧
        table.forgotten key < table'.forgotten key) ∨
      map'.current.get? key = map.current.get? key ∧
        table'.values.get? key = table.values.get? key ∧
        table'.forgotten key = table.forgotten key) : Tracks map' table' := by
  -- Forgetting touches what keys stand for, never a flight.
  have hFlight : ∀ number, map'.flight number = map.flight number := by
    intro number
    rw [FlightMap.flight, FlightMap.flight, hFlights]
  refine ⟨by rw [hClaims, hFlights, hTracks.claims], ?_, ?_, ?_, ?_, ?_, ?_⟩
  · intro key
    rcases hKeys key with ⟨hCurrent, hValue, -⟩ | ⟨hCurrent, hValue, -⟩
    · rw [hValue, FlightMap.get?_eq_none_of_current hCurrent]
    · rw [hValue, ← hTracks.values, FlightMap.get?, FlightMap.get?, hCurrent]
      simp only [Option.map, hFlight]
  · intro key number hNumber
    rw [hUnderway, hFlight]
    rcases hKeys key with ⟨hCurrent, -⟩ | ⟨hCurrent, -⟩
    · rw [hCurrent] at hNumber
      cases hNumber
    · rw [hCurrent] at hNumber
      exact hTracks.current key number hNumber
  · rw [hUnderway]
    intro claimed hMem
    rw [hFlight, hTracks.resolving claimed hMem]
  · rw [hUnderway]
    intro claimed hMem
    -- A forgotten key has been forgotten once more than when its resolver started, for good.
    have hPast := hTracks.past claimed hMem
    rcases hKeys claimed.key with ⟨hCurrent, -, hGrown⟩ | ⟨hCurrent, -, hForgotten⟩
    · rw [hCurrent]
      refine iff_of_false (fun hNever => by cases hNever) ?_
      omega
    · rw [hCurrent, hForgotten, hTracks.belongs claimed hMem]
  · rw [hUnderway]
    intro claimed hMem
    have hPast := hTracks.past claimed hMem
    rcases hKeys claimed.key with ⟨-, -, hGrown⟩ | ⟨-, -, hForgotten⟩ <;> omega
  · rw [hUnderway]
    exact hTracks.distinct

/-- Removing a key forgets it on both sides. -/
theorem remove (hTracks : Tracks map table) (key : κ) :
    Tracks (map.remove key) (table.remove key) := by
  refine hTracks.forget rfl rfl rfl fun other => ?_
  by_cases hOther : other = key
  · subst hOther
    refine .inl ⟨map.current.get?_erase_self other, table.values.get?_erase_self other, ?_⟩
    simp [MemoTable.remove]
  · refine .inr ⟨map.current.get?_erase_of_ne hOther, table.values.get?_erase_of_ne hOther, ?_⟩
    simp [MemoTable.remove, hOther]

theorem clear (hTracks : Tracks map table) : Tracks map.clear table.clear :=
  hTracks.forget rfl rfl rfl fun _ => .inl ⟨rfl, rfl, Nat.lt_succ_self _⟩

/-! ### Counting -/

/-- The map counts the values of the table. -/
theorem resolvedCount_eq (hTracks : Tracks map table) : map.resolvedCount = table.values.size := by
  obtain ⟨keys, hNodup, hKeys, hCount⟩ := map.exists_resolved_keys
  have hSame : ∀ key, key ∈ keys ↔ key ∈ table.values.keys := by
    intro key
    rw [hKeys, hTracks.values, ← OrderedMap.contains_iff, OrderedMap.contains]
  have hPerm := (List.perm_ext_iff_of_nodup hNodup table.values.distinct).2 hSame
  rw [hCount, hPerm.length_eq, Entries.keys, List.length_map]
  rfl

end Tracks

/-! ## Runs -/

mutual

/-- **One step**: the answers are the same, and the two stay in step; when it is over, the flights
    under way are those that were under way before. -/
theorem run_tracks : (step : FlightStep κ ν ε) → step.alone = true →
    ∀ {map : FlightMap κ ν ε} {table : MemoTable κ ν}, Tracks map table →
      ∃ after, step.run ⟨map, []⟩ = ((table.run step).1, ⟨after, []⟩) ∧
        Tracks after (table.run step).2 ∧ (table.run step).2.underway = table.underway
  | .resolve key during outcome, hAlone, map, table, hTracks => by
    rw [run]
    cases hValue : table.values.get? key with
    | some value =>
      have hGet := (hTracks.values key).trans hValue
      -- A memoised key: neither side does anything.
      exact ⟨map, FlightStep.run_resolve_of_value hGet during outcome, hTracks, rfl⟩
    | none =>
      cases hAwaited : table.awaited key with
      | some number =>
        obtain ⟨hCurrent, hResolving⟩ := hTracks.awaited_eq_some_iff.1 hAwaited
        exact ⟨map, FlightStep.run_resolve_of_resolving hCurrent hResolving during outcome, hTracks,
          rfl⟩
      | none =>
        -- A free key: claim, run the resolver, land. The flight that lands is the one that was
        -- claimed, as the inner uses leave what is under way.
        have hFree := hTracks.current_eq_none hValue hAwaited
        obtain ⟨inner, hDuring, hInner, hUnderway⟩ :=
          runAll_tracks during hAlone (hTracks.claim hFree)
        have hLanded := hInner.land hUnderway outcome
        rw [hTracks.claims] at hLanded
        exact ⟨_, FlightStep.run_resolve_of_free hFree hDuring outcome, hLanded, rfl⟩
  | .follow key own, hAlone, map, table, hTracks => by
    cases hAlone
  | .get key, _, map, table, hTracks => by
    refine ⟨map, ?_, hTracks, rfl⟩
    rw [FlightStep.run, run, hTracks.values]
  | .state key, _, map, table, hTracks => by
    refine ⟨map, ?_, hTracks, rfl⟩
    rw [FlightStep.run, run, hTracks.state_eq]
  | .remove key, _, map, table, hTracks => ⟨map.remove key, rfl, hTracks.remove key, rfl⟩
  | .clear, _, map, table, hTracks => ⟨map.clear, rfl, hTracks.clear, rfl⟩

/-- Several uses, one after the other, are answered alike and leave the two in agreement. -/
theorem runAll_tracks : (steps : List (FlightStep κ ν ε)) → FlightStep.allAlone steps = true →
    ∀ {map : FlightMap κ ν ε} {table : MemoTable κ ν}, Tracks map table →
      ∃ after, FlightStep.runAll ⟨map, []⟩ steps = ((table.runAll steps).1, ⟨after, []⟩) ∧
        Tracks after (table.runAll steps).2 ∧ (table.runAll steps).2.underway = table.underway
  | [], _, map, table, hTracks => ⟨map, rfl, hTracks, rfl⟩
  | step :: rest, hAlone, map, table, hTracks => by
    rw [FlightStep.allAlone, Bool.and_eq_true] at hAlone
    obtain ⟨next, hStep, hNext, hUnderway⟩ := run_tracks step hAlone.1 hTracks
    obtain ⟨after, hRest, hAfter, hUnderway'⟩ := runAll_tracks rest hAlone.2 hNext
    refine ⟨after, ?_, hAfter, hUnderway'.trans hUnderway⟩
    simp only [FlightStep.runAll, runAll, hStep, hRest, hNext.resolvedCount_eq]

end

/-- When no flight is under way, no key waits for one. -/
theorem awaited_eq_none {table : MemoTable κ ν} (hOver : table.underway = []) (key : κ) :
    table.awaited key = none := by
  rw [awaited, hOver]
  rfl

/-- **A flight map is a memo table.**  Whatever one caller does with a new map, and whatever its
    resolvers do with it while they run, to any depth: all answers, and the numbers of resolved keys
    between them, are those of the memo table.  After any sequence of outermost steps the map says
    of every key what the table says, no key is left resolving, the resolved keys are those with a
    value, and they are counted once each. -/
theorem runAll_eq_memoTable_runAll (steps : List (FlightStep κ ν ε))
    (hAlone : FlightStep.allAlone steps = true) :
    ∃ map : FlightMap κ ν ε,
      FlightStep.runAll {} steps = ((({} : MemoTable κ ν).runAll steps).1, { map }) ∧
      (∀ key, map.get? key = (({} : MemoTable κ ν).runAll steps).2.values.get? key) ∧
      (∀ key, map.state key ≠ .resolving ∧
        (map.state key = .resolved ↔ (map.get? key).isSome = true)) ∧
      ∃ keys : List κ, keys.Nodup ∧ (∀ key, key ∈ keys ↔ map.state key = .resolved) ∧
        map.resolvedCount = keys.length := by
  obtain ⟨map, hRun, hTracks, hOver⟩ := runAll_tracks steps hAlone Tracks.fresh
  have hState : ∀ key, map.state key ≠ .resolving ∧
      (map.state key = .resolved ↔ (map.get? key).isSome = true) := by
    intro key
    rw [hTracks.state_eq, hTracks.values, MemoTable.state, awaited_eq_none hOver]
    cases (({} : MemoTable κ ν).runAll steps).2.values.get? key <;> simp
  obtain ⟨keys, hNodup, hKeys, hCount⟩ := map.exists_resolved_keys
  refine ⟨map, hRun, hTracks.values, hState, keys, hNodup, fun key => ?_, hCount⟩
  rw [hKeys, (hState key).2]

/-- A resolver removes its own key and resolves it anew, inside another flight that then fails; the
    outer value comes too late.  Then a map is cleared while a key is being resolved. -/
def removedInFlight : List (FlightStep String Nat String) := [
  .resolve "a" [
    .resolve "b" [.remove "a", .state "a", .resolve "a" [.state "a"] (.value 2)] (.failure "no b"),
    .get "a"] (.value 1),
  .get "a",
  .resolve "c" [.clear] (.value 3),
  .resolve "d" [.state "c"] .crash,
  .resolve "a" [] (.value 4)]

theorem runAll_eq_memoTable_runAll_removedInFlight :
    FlightStep.allAlone removedInFlight = true ∧
      ∃ map : FlightMap String Nat String,
        FlightStep.runAll {} removedInFlight =
          ((({} : MemoTable String Nat).runAll removedInFlight).1, { map }) ∧
        map.get? "a" = some 4 ∧ map.state "c" ≠ .resolving ∧ map.get? "d" = none := by
  have hAlone : FlightStep.allAlone removedInFlight = true := rfl
  obtain ⟨map, hRun, hValues, hState, -⟩ := runAll_eq_memoTable_runAll removedInFlight hAlone
  refine ⟨hAlone, map, hRun, ?_, (hState "c").1, ?_⟩
  · rw [hValues]
    decide +kernel
  · rw [hValues]
    decide +kernel

end MemoTable

end Lineage
