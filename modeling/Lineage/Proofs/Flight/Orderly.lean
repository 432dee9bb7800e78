/-
  Flights in order, in every order of steps.

  The invariant: every flight has one leader, for good, and its state in the map is what has become
  of it; it is resolving as long as its leader lives.  A key belongs to a flight only if the leader
  of that flight asked for this key and has not freed it.  Who fails or crashes frees the key before
  saying so; so the map holds no flight that failed or was abandoned.

  A section changes little: the phase of its own call, the state of the flight that this call leads,
  and whether a key belongs to that flight.  `Orderly.enter_of` says what may change in that way,
  and each kind of section is a case of it.
-/
import Lineage.Proofs.Flight.Interleaving

namespace Lineage

/-! ## What a phase says of a flight -/

namespace CallPhase

variable {ν ε : Type}

/-- What has become of the flight that a call leads or has led. -/
def made : CallPhase ν ε → FlightState ν ε
  | led _ outcome => .ofOutcome outcome
  | idle | asking | resolving _ | freeing _ _ | landing _ _ | following _ | looking _ | shared _ _
  | saw _ => .resolving

/-- The flight of a call that its key may still belong to. -/
def holds? : CallPhase ν ε → Option Nat
  | resolving number | freeing number _ => some number
  | landing number outcome | led number outcome => outcome.value?.map fun _ => number
  | idle | asking | following _ | looking _ | shared _ _ | saw _ => none

theorem flight?_of_leads? {phase : CallPhase ν ε} {number : Nat}
    (hLeads : phase.leads? = some number) :
    phase.flight? = some number ∧ phase.made = .resolving := by
  cases phase <;> simp_all [leads?, flight?, made]

/-- What has become of a flight is the outcome of its leader's resolver. -/
theorem outcome?_of_made {phase : CallPhase ν ε} {outcome : Outcome ν ε}
    (hMade : phase.made = .ofOutcome outcome) : phase.outcome? = some outcome := by
  cases phase with
  | led _ own => exact congrArg some (FlightState.ofOutcome_injective hMade)
  | _ => exact absurd hMade.symm (FlightState.ofOutcome_ne_resolving outcome)

theorem flight?_of_holds? {phase : CallPhase ν ε} {number : Nat}
    (hHolds : phase.holds? = some number) : phase.flight? = some number := by
  cases phase with
  | resolving _ | freeing _ _ => exact hHolds
  | landing _ outcome | led _ outcome =>
    obtain ⟨value, -, hNumber⟩ := Option.map_eq_some_iff.1 hHolds
    exact congrArg some hNumber
  | idle | asking | following _ | looking _ | shared _ _ | saw _ => cases hHolds

/-- A flight whose key has not been freed has a leader that lives, or a value. -/
theorem leads?_or_resolved {phase : CallPhase ν ε} {number : Nat}
    (hHolds : phase.holds? = some number) :
    phase.leads? = some number ∨ ∃ value, phase.made = .resolved value := by
  cases phase with
  | resolving _ | freeing _ _ => exact .inl hHolds
  | landing _ outcome => exact .inl (flight?_of_holds? hHolds)
  | led _ outcome =>
    obtain ⟨value, hValue, -⟩ := Option.map_eq_some_iff.1 hHolds
    exact .inr ⟨value, FlightState.ofOutcome_eq_resolved_iff.2 hValue⟩
  | idle | asking | following _ | looking _ | shared _ _ | saw _ => cases hHolds

end CallPhase

variable {ι κ ν ε : Type} [DecidableEq ι] [DecidableEq κ]

/-! ## The invariant -/

/-- Every flight has one leader, and its state says what the leader has made of it. -/
structure Orderly (key : ι → κ) (crowd : Crowd ι κ ν ε) : Prop where
  flight : ∀ {call number}, (crowd.phase call).flight? = some number →
    number < crowd.map.flights.length ∧ crowd.map.flight number = (crowd.phase call).made
  unique : ∀ {one other number}, (crowd.phase one).flight? = some number →
    (crowd.phase other).flight? = some number → one = other
  /-- A key belongs to a flight that was claimed for it and that still holds it. -/
  current : ∀ {k number}, crowd.map.current.get? k = some number →
    ∃ call, key call = k ∧ (crowd.phase call).holds? = some number
  /-- A flight that is followed was claimed for the key of its followers. -/
  joined : ∀ {call number}, (crowd.phase call).joined? = some number →
    ∃ leader, key leader = key call ∧ (crowd.phase leader).flight? = some number
  shared : ∀ {call number result}, crowd.phase call = .shared number result →
    crowd.map.flight number = .ofOutcome (.ofExcept result)

namespace Orderly

variable {key : ι → κ} {crowd : Crowd ι κ ν ε}

omit [DecidableEq ι] in
/-- A crowd in which nobody has asked is orderly. -/
theorem start : Orderly key ({} : Crowd ι κ ν ε) where
  flight := by
    intro call number hNone
    cases hNone
  unique := by
    intro one other number hNone
    cases hNone
  current := by
    intro k number hNone
    cases hNone
  joined := by
    intro call number hNone
    cases hNone
  shared := by
    intro call number result hNone
    cases hNone

/-- **What a section may change**: the phase of its own call, the state of the flight that this call
    leads, and which keys belong to that flight. -/
theorem enter_of (hOrderly : Orderly key crowd) {call : ι} {phase : CallPhase ν ε}
    {map : FlightMap κ ν ε} (hLength : crowd.map.flights.length ≤ map.flights.length)
    (hOthers : ∀ number, number < crowd.map.flights.length →
      (crowd.phase call).leads? ≠ some number → map.flight number = crowd.map.flight number)
    (hKept : ∀ number, (crowd.phase call).flight? = some number → phase.flight? = some number)
    (hOwn : ∀ number, phase.flight? = some number →
      (number < map.flights.length ∧ map.flight number = phase.made) ∧
        ((crowd.phase call).flight? = some number ∨ crowd.map.flights.length ≤ number))
    (hCurrent : ∀ k number, map.current.get? k = some number →
      k = key call ∧ phase.holds? = some number ∨
        crowd.map.current.get? k = some number ∧
          ((crowd.phase call).holds? = some number → key call = k →
            phase.holds? = some number))
    (hJoined : ∀ number, phase.joined? = some number →
      ∃ leader, key leader = key call ∧ (crowd.phase leader).flight? = some number)
    (hShared : ∀ number result, phase = .shared number result →
      map.flight number = .ofOutcome (.ofExcept result)) :
    Orderly key (Crowd.enter { crowd with map } call phase) := by
  -- A call keeps the flight it leads.
  have hStill : ∀ leader number, (crowd.phase leader).flight? = some number →
      ((Crowd.enter { crowd with map } call phase).phase leader).flight? = some number := by
    intro leader number hFlight
    by_cases hLeader : leader = call
    · subst hLeader
      rw [Crowd.phase_enter_self]
      exact hKept number hFlight
    · rwa [Crowd.phase_enter_of_ne _ hLeader]
  -- The flights that other calls led before are not those that `call` leads.
  have hOld : ∀ {other number}, other ≠ call → (crowd.phase other).flight? = some number →
      phase.flight? ≠ some number := by
    intro other number hOther hFlight hMine
    rcases (hOwn number hMine).2 with hBefore | hNew
    · exact hOther (hOrderly.unique hFlight hBefore)
    · exact absurd (hOrderly.flight hFlight).1 (Nat.not_lt_of_le hNew)
  refine ⟨?flight, ?unique, ?current, ?joined, ?shared⟩
  case flight =>
    intro other number hFlight
    by_cases hOther : other = call
    · subst hOther
      rw [Crowd.phase_enter_self] at hFlight ⊢
      exact (hOwn number hFlight).1
    · rw [Crowd.phase_enter_of_ne _ hOther] at hFlight ⊢
      obtain ⟨hLt, hMade⟩ := hOrderly.flight hFlight
      refine ⟨Nat.lt_of_lt_of_le hLt hLength, ?_⟩
      rw [← hMade]
      refine hOthers number hLt fun hLeads => hOther ?_
      exact hOrderly.unique hFlight (CallPhase.flight?_of_leads? hLeads).1
  case unique =>
    intro one other number hOne hOther
    by_cases hOneCall : one = call
    · by_cases hOtherCall : other = call
      · exact hOneCall.trans hOtherCall.symm
      · subst hOneCall
        rw [Crowd.phase_enter_self] at hOne
        rw [Crowd.phase_enter_of_ne _ hOtherCall] at hOther
        exact absurd hOne (hOld hOtherCall hOther)
    · rw [Crowd.phase_enter_of_ne _ hOneCall] at hOne
      by_cases hOtherCall : other = call
      · subst hOtherCall
        rw [Crowd.phase_enter_self] at hOther
        exact absurd hOther (hOld hOneCall hOne)
      · rw [Crowd.phase_enter_of_ne _ hOtherCall] at hOther
        exact hOrderly.unique hOne hOther
  case current =>
    intro k number hNumber
    rcases hCurrent k number hNumber with ⟨rfl, hHolds⟩ | ⟨hBefore, hKeeps⟩
    · exact ⟨call, rfl, by rwa [Crowd.phase_enter_self]⟩
    · obtain ⟨holder, hKey, hHolds⟩ := hOrderly.current hBefore
      refine ⟨holder, hKey, ?_⟩
      by_cases hHolder : holder = call
      · subst hHolder
        rw [Crowd.phase_enter_self]
        exact hKeeps hHolds hKey
      · rwa [Crowd.phase_enter_of_ne _ hHolder]
  case joined =>
    intro other number hNumber
    by_cases hOther : other = call
    · subst hOther
      rw [Crowd.phase_enter_self] at hNumber
      obtain ⟨leader, hKey, hFlight⟩ := hJoined number hNumber
      exact ⟨leader, hKey, hStill leader number hFlight⟩
    · rw [Crowd.phase_enter_of_ne _ hOther] at hNumber
      obtain ⟨leader, hKey, hFlight⟩ := hOrderly.joined hNumber
      exact ⟨leader, hKey, hStill leader number hFlight⟩
  case shared =>
    intro other number result hPhase
    by_cases hOther : other = call
    · subst hOther
      rw [Crowd.phase_enter_self] at hPhase
      exact hShared number result hPhase
    · rw [Crowd.phase_enter_of_ne _ hOther] at hPhase
      have hBrought := hOrderly.shared hPhase
      obtain ⟨leader, -, hFlight⟩ := hOrderly.joined (by rw [hPhase]; rfl : _ = some number)
      show map.flight number = _
      rw [hOthers number (hOrderly.flight hFlight).1 fun hLeads => ?_, hBrought]
      -- What is shared has landed, and a flight that has a leader has not.
      obtain ⟨hMine, hMade⟩ := CallPhase.flight?_of_leads? hLeads
      rw [(hOrderly.flight hMine).2, hMade] at hBrought
      exact FlightState.ofOutcome_ne_resolving _ hBrought.symm

/-- A section that leaves the map alone, and keeps what the phase says of a flight. -/
theorem enter (hOrderly : Orderly key crowd) {call : ι} {phase : CallPhase ν ε}
    (hFlight : phase.flight? = (crowd.phase call).flight?)
    (hMade : phase.made = (crowd.phase call).made)
    (hHolds : phase.holds? = (crowd.phase call).holds?)
    (hJoined : ∀ number, phase.joined? = some number →
      ∃ leader, key leader = key call ∧ (crowd.phase leader).flight? = some number)
    (hShared : ∀ number result, phase = .shared number result →
      crowd.map.flight number = .ofOutcome (.ofExcept result)) :
    Orderly key (crowd.enter call phase) := by
  refine hOrderly.enter_of (Nat.le_refl _) (fun _ _ _ => rfl) ?_ ?_ ?_ hJoined
    hShared
  · intro number hNumber
    rwa [hFlight]
  · intro number hNumber
    rw [hFlight] at hNumber
    rw [hMade]
    exact ⟨hOrderly.flight hNumber, .inl hNumber⟩
  · intro k number hNumber
    exact .inr ⟨hNumber, fun hBefore _ => hHolds.trans hBefore⟩

omit [DecidableEq ι] in
/-- What forgets keys changes no flight. -/
theorem forget (hOrderly : Orderly key crowd) {map : FlightMap κ ν ε}
    (hFlights : map.flights = crowd.map.flights)
    (hCurrent : ∀ {k number}, map.current.get? k = some number →
      crowd.map.current.get? k = some number) : Orderly key { crowd with map } where
  flight := by
    intro call number hNumber
    show number < map.flights.length ∧ map.flight number = _
    rw [FlightMap.flight, hFlights]
    exact hOrderly.flight hNumber
  unique := hOrderly.unique
  current := fun hNumber => hOrderly.current (hCurrent hNumber)
  joined := hOrderly.joined
  shared := by
    intro call number result hPhase
    show map.flight number = _
    rw [FlightMap.flight, hFlights]
    exact hOrderly.shared hPhase

theorem lead (hOrderly : Orderly key crowd) {call : ι} {number : Nat} {map : FlightMap κ ν ε}
    (hAsking : crowd.phase call = .asking)
    (hClaim : crowd.map.claim (key call) = (.leader number, map)) :
    Orderly key (Crowd.enter { crowd with map } call (.resolving number)) := by
  obtain ⟨-, rfl, rfl⟩ := FlightMap.claim_eq_leader_iff.1 hClaim
  have hLength : (crowd.map.opened (key call)).flights.length = crowd.map.flights.length + 1 := by
    rw [FlightMap.opened, List.length_append, List.length_singleton]
  -- The caller had no flight yet, and the new one has the first number that is free.
  refine hOrderly.enter_of (by omega) ?_ ?_ ?_ ?_ ?_ ?_
  · intro number hLt _
    exact crowd.map.flight_opened_of_lt (key call) hLt
  · intro number hNumber
    rw [hAsking] at hNumber
    cases hNumber
  · intro number hNumber
    cases hNumber
    exact ⟨⟨by omega, crowd.map.flight_opened_self (key call)⟩, .inr (Nat.le_refl _)⟩
  · intro k number hNumber
    rw [FlightMap.current_opened] at hNumber
    split at hNumber
    · rename_i hKey
      exact .inl ⟨hKey, hNumber⟩
    · refine .inr ⟨hNumber, fun hHolds _ => ?_⟩
      rw [hAsking] at hHolds
      cases hHolds
  · intro number hNumber
    cases hNumber
  · intro number result hNumber
    cases hNumber

/-- Following changes nothing for anybody else. -/
theorem join (hOrderly : Orderly key crowd) {call : ι} {number : Nat} {map : FlightMap κ ν ε}
    (hAsking : crowd.phase call = .asking)
    (hClaim : crowd.map.claim (key call) = (.follower number, map)) :
    Orderly key (Crowd.enter { crowd with map } call (.following number)) := by
  obtain ⟨hCurrent, rfl⟩ := FlightMap.claim_eq_follower_iff.1 hClaim
  refine hOrderly.enter (by rw [hAsking]; rfl) (by rw [hAsking]; rfl) (by rw [hAsking]; rfl) ?_ ?_
  · intro number hNumber
    cases hNumber
    obtain ⟨leader, hKey, hHolds⟩ := hOrderly.current hCurrent
    exact ⟨leader, hKey, CallPhase.flight?_of_holds? hHolds⟩
  · intro number result hNumber
    cases hNumber

theorem free (hOrderly : Orderly key crowd) {call : ι} {number : Nat} {outcome : Outcome ν ε}
    (hFreeing : crowd.phase call = .freeing number outcome) :
    Orderly key (Crowd.enter { crowd with
      map := crowd.map.removeIfCurrent (key call) number } call (.landing number outcome)) := by
  have hFlights := crowd.map.flights_removeIfCurrent (key call) number
  have hSame : ∀ other, (crowd.map.removeIfCurrent (key call) number).flight other =
      crowd.map.flight other := by
    intro other
    rw [FlightMap.flight, hFlights]
    rfl
  -- The flight stays under way: taken out of its key, it can still be landed by its leader.
  refine hOrderly.enter_of (Nat.le_of_eq (congrArg _ hFlights.symm)) (fun other _ _ => hSame other)
    ?_ ?_ ?_ ?_ ?_
  · intro other hOther
    rwa [hFreeing] at hOther
  · intro other hOther
    have hBefore : (crowd.phase call).flight? = some other := by rwa [hFreeing]
    obtain ⟨hLt, hMade⟩ := hOrderly.flight hBefore
    refine ⟨⟨by rwa [hFlights], ?_⟩, .inl hBefore⟩
    rw [hSame, hMade, hFreeing]
    rfl
  · intro k other hOther
    obtain ⟨hBefore, hNot⟩ := FlightMap.current_removeIfCurrent_eq_some_iff.1 hOther
    refine .inr ⟨hBefore, fun hHolds hKey => ?_⟩
    rw [hFreeing] at hHolds
    cases hHolds
    exact absurd ⟨hKey.symm, rfl⟩ hNot
  · intro other hOther
    cases hOther
  · intro other result hOther
    cases hOther

theorem settle (hOrderly : Orderly key crowd) {call : ι} {number : Nat} {outcome : Outcome ν ε}
    (hLanding : crowd.phase call = .landing number outcome) :
    Orderly key (Crowd.enter { crowd with
      map := crowd.map.settle number (.ofOutcome outcome) } call (.led number outcome)) := by
  have hLt : number < crowd.map.flights.length :=
    (hOrderly.flight (by rw [hLanding]; rfl : (crowd.phase call).flight? = some number)).1
  have hLength : (crowd.map.settle number (.ofOutcome outcome)).flights.length =
      crowd.map.flights.length := List.length_set
  -- Only the leader settles its flight, so the state that others see changes for this one alone.
  refine hOrderly.enter_of (Nat.le_of_eq hLength.symm) ?_ ?_ ?_ ?_ ?_ ?_
  · intro other _ hLeads
    refine crowd.map.flight_settle_of_ne (fun hOther => hLeads ?_) _
    rw [hLanding, hOther]
    rfl
  · intro other hOther
    rwa [hLanding] at hOther
  · intro other hOther
    cases hOther
    rw [hLength, hLanding]
    exact ⟨⟨hLt, FlightMap.flight_settle_self hLt _⟩, .inl rfl⟩
  · intro k other hOther
    refine .inr ⟨hOther, fun hHolds _ => ?_⟩
    rwa [hLanding] at hHolds
  · intro other hOther
    cases hOther
  · intro other result hOther
    cases hOther

/-- Sharing a result changes nothing for anybody else. -/
theorem share (hOrderly : Orderly key crowd) {call : ι} {number : Nat} {result : Except ε ν}
    (hFollowing : crowd.phase call = .following number)
    (hFlight : crowd.map.follow number = .shared result) :
    Orderly key (crowd.enter call (.shared number result)) := by
  refine hOrderly.enter (by rw [hFollowing]; rfl) (by rw [hFollowing]; rfl)
    (by rw [hFollowing]; rfl) ?_ ?_
  · intro other hOther
    refine hOrderly.joined ?_
    rwa [hFollowing]
  · intro other brought hPhase
    cases hPhase
    exact FlightMap.follow_eq_shared_iff.1 hFlight

/-- A call that leads and follows no flight, and goes on like that. -/
theorem enter_apart (hOrderly : Orderly key crowd) {call : ι} {phase : CallPhase ν ε}
    (hBefore : (crowd.phase call).flight? = none) (hAfter : phase.flight? = none)
    (hJoined : phase.joined? = none) : Orderly key (crowd.enter call phase) := by
  have hNothing : ∀ {phase : CallPhase ν ε}, phase.flight? = none →
      phase.made = .resolving ∧ phase.holds? = none := by
    intro phase hNone
    cases phase <;> simp_all [CallPhase.flight?, CallPhase.made, CallPhase.holds?]
  refine hOrderly.enter (hAfter.trans hBefore.symm)
    ((hNothing hAfter).1.trans (hNothing hBefore).1.symm)
    ((hNothing hAfter).2.trans (hNothing hBefore).2.symm) ?_ ?_
  · intro number hNumber
    rw [hJoined] at hNumber
    cases hNumber
  · rintro number result rfl
    cases hJoined

/-- **Every section keeps the flights in order.** -/
theorem step (hOrderly : Orderly key crowd) {event : CrowdEvent ι κ ν ε} {next : Crowd ι κ ν ε}
    (hStep : CrowdStep key crowd event next) : Orderly key next := by
  -- One case for each event; those that use the map have lemmas of their own.
  cases hStep with
  | ask hIdle => exact hOrderly.enter_apart (by rw [hIdle]; rfl) rfl rfl
  | lead hAsking hClaim => exact hOrderly.lead hAsking hClaim
  | join hAsking hClaim => exact hOrderly.join hAsking hClaim
  | finish outcome hResolving =>
    refine hOrderly.enter ?_ ?_ ?_ ?_ ?_
    all_goals cases outcome <;> simp [hResolving, CallPhase.ended, CallPhase.flight?,
      CallPhase.made, CallPhase.holds?, CallPhase.joined?, Outcome.value?]
  | free hFreeing => exact hOrderly.free hFreeing
  | settle hLanding => exact hOrderly.settle hLanding
  | share hFollowing hFlight => exact hOrderly.share hFollowing hFlight
  | retry hFollowing _ => exact hOrderly.enter_apart (by rw [hFollowing]; rfl) rfl rfl
  | @look call hIdle =>
    refine hOrderly.enter_apart (by rw [hIdle]; rfl) ?_ ?_ <;>
      cases crowd.map.current.get? (key call) <;> rfl
  | see hLooking => exact hOrderly.enter_apart (by rw [hLooking]; rfl) rfl rfl
  | remove other =>
    refine hOrderly.forget rfl fun {k} _ hNumber => ?_
    by_cases hKey : k = other
    · subst hKey
      rw [FlightMap.remove, OrderedMap.get?_erase_self] at hNumber
      cases hNumber
    · rwa [FlightMap.remove, OrderedMap.get?_erase_of_ne _ hKey] at hNumber
  | clear =>
    refine hOrderly.forget rfl fun hNumber => ?_
    cases hNumber

/-- A crowd is orderly at every point of a run. -/
theorem run {events : List (CrowdEvent ι κ ν ε)} (hRun : CrowdRun key {} events crowd) :
    Orderly key crowd := by
  induction hRun with
  | nil => exact start
  | snoc _ hStep ih => exact ih.step hStep

end Orderly

end Lineage
