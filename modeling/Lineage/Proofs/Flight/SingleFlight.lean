/-
  One flight at a time, in every order of steps.

  1. **The record.**  The phase of a call remembers which flight it led and how its resolver ended,
     so what the events of a whole run say of a call can be read off the phase it has come to.

  2. **One resolver (`current_of_resolving`).**  Since a key was last forgotten, it belongs to every
     flight that was claimed for it and whose resolver still runs; and a key belongs to one flight.

  3. **One outcome.**  A flight that can be shared has the outcome of its leader's resolver, and the
     leader of a flight and the outcome of a resolver are recorded once.
-/
import Lineage.Proofs.Flight.Orderly
import Mathlib.Data.List.Basic

namespace Lineage

variable {ι κ ν ε : Type} [DecidableEq ι] [DecidableEq κ]

/-! ## What a section means to one call -/

/-- `CallStep call before event after`: the event takes the call from one phase to another, or is
    none of its own and leaves it where it is. -/
inductive CallStep (call : ι) : CallPhase ν ε → CrowdEvent ι κ ν ε → CallPhase ν ε → Prop
  | ask : CallStep call .idle (.ask call) .asking
  | lead (number : Nat) : CallStep call .asking (.lead call number) (.resolving number)
  | join (number : Nat) : CallStep call .asking (.join call number) (.following number)
  | finish (number : Nat) (outcome : Outcome ν ε) :
      CallStep call (.resolving number) (.finish call outcome) (.ended number outcome)
  | free (number : Nat) (outcome : Outcome ν ε) :
      CallStep call (.freeing number outcome) (.free call) (.landing number outcome)
  | settle (number : Nat) (outcome : Outcome ν ε) :
      CallStep call (.landing number outcome) (.settle call) (.led number outcome)
  | share (number : Nat) (result : Except ε ν) :
      CallStep call (.following number) (.share call result) (.shared number result)
  | retry (number : Nat) : CallStep call (.following number) (.retry call) .asking
  | look (number : Option Nat) : CallStep call .idle (.look call) (.found number)
  | see (number : Nat) (value : Option ν) :
      CallStep call (.looking number) (.see call) (.saw value)
  | apart {phase : CallPhase ν ε} {event : CrowdEvent ι κ ν ε}
      (hApart : event.call? ≠ some call) : CallStep call phase event phase

namespace CallStep

variable {key : ι → κ} {crowd next : Crowd ι κ ν ε} {event : CrowdEvent ι κ ν ε} {call : ι}
  {before after : CallPhase ν ε}

omit [DecidableEq κ] in
/-- An event of one call is a step of that call, and for the others none. -/
theorem enter {actor : ι} {map : FlightMap κ ν ε} (hEvent : event.call? = some actor)
    (hOwn : CallStep actor (crowd.phase actor) event after) (call : ι) :
    CallStep call (crowd.phase call) event
      ((Crowd.enter { crowd with map } actor after).phase call) := by
  by_cases hCall : call = actor
  · subst hCall
    rwa [Crowd.phase_enter_self]
  · rw [Crowd.phase_enter_of_ne _ hCall]
    refine .apart fun hActor => hCall ?_
    rw [hEvent] at hActor
    exact (Option.some.inj hActor).symm

/-- A step of the crowd is a step of each of its calls. -/
theorem of_step (hStep : CrowdStep key crowd event next) (call : ι) :
    CallStep call (crowd.phase call) event (next.phase call) := by
  cases hStep with
  | ask hIdle => exact enter rfl (by rw [hIdle]; exact .ask) call
  | lead hAsking _ => exact enter rfl (by rw [hAsking]; exact .lead _) call
  | join hAsking _ => exact enter rfl (by rw [hAsking]; exact .join _) call
  | finish outcome hResolving => exact enter rfl (by rw [hResolving]; exact .finish _ _) call
  | free hFreeing => exact enter rfl (by rw [hFreeing]; exact .free _ _) call
  | settle hLanding => exact enter rfl (by rw [hLanding]; exact .settle _ _) call
  | share hFollowing _ => exact enter rfl (by rw [hFollowing]; exact .share _ _) call
  | retry hFollowing _ => exact enter rfl (by rw [hFollowing]; exact .retry _) call
  | look hIdle => exact enter rfl (by rw [hIdle]; exact .look _) call
  | see hLooking => exact enter rfl (by rw [hLooking]; exact .see _ _) call
  | remove _ | clear => exact .apart (fun hNever => by cases hNever)

end CallStep

/-! ## The record -/

namespace CrowdEvent

variable {event : CrowdEvent ι κ ν ε} {call : ι}

omit [DecidableEq κ]

theorem ledBy?_eq_some_iff {number : Nat} :
    event.ledBy? call = some number ↔ event = .lead call number := by
  cases event <;> simp [ledBy?]

theorem joinedBy?_eq_some_iff {number : Nat} :
    event.joinedBy? call = some number ↔ event = .join call number := by
  cases event <;> simp [joinedBy?]

theorem endedBy?_eq_some_iff {outcome : Outcome ν ε} :
    event.endedBy? call = some outcome ↔ event = .finish call outcome := by
  cases event <;> simp [endedBy?]

/-- An event says nothing of the calls whose section it is not. -/
theorem apart (hApart : event.call? ≠ some call) :
    event.ledBy? call = none ∧ event.joinedBy? call = none ∧ event.endedBy? call = none := by
  refine ⟨?_, ?_, ?_⟩
  · refine Option.eq_none_iff_forall_ne_some.2 fun number hLed => hApart ?_
    rw [ledBy?_eq_some_iff.1 hLed]
    rfl
  · refine Option.eq_none_iff_forall_ne_some.2 fun number hJoined => hApart ?_
    rw [joinedBy?_eq_some_iff.1 hJoined]
    rfl
  · refine Option.eq_none_iff_forall_ne_some.2 fun outcome hEnded => hApart ?_
    rw [endedBy?_eq_some_iff.1 hEnded]
    rfl

end CrowdEvent

namespace CallStep

variable {event : CrowdEvent ι κ ν ε} {call : ι} {before after : CallPhase ν ε}

omit [DecidableEq κ]

/-- A phase remembers which flight was led. -/
theorem flight?_toList (hStep : CallStep call before event after) :
    after.flight?.toList = before.flight?.toList ++ (event.ledBy? call).toList := by
  cases hStep with
  | finish _ outcome => cases outcome <;> rfl
  | lead number => simp [CallPhase.flight?, CrowdEvent.ledBy?]
  | look number => cases number <;> rfl
  | apart hApart => rw [(CrowdEvent.apart hApart).1, Option.toList_none, List.append_nil]
  | _ => rfl

/-- A phase remembers how the resolver ended. -/
theorem outcome?_toList (hStep : CallStep call before event after) :
    after.outcome?.toList = before.outcome?.toList ++ (event.endedBy? call).toList := by
  cases hStep with
  | finish _ outcome => cases outcome <;> simp [CallPhase.outcome?, CallPhase.ended,
      CrowdEvent.endedBy?]
  | look number => cases number <;> rfl
  | apart hApart => rw [(CrowdEvent.apart hApart).2.2, Option.toList_none, List.append_nil]
  | _ => rfl

/-- A phase knows the flight that was joined last. -/
theorem joinedBy?_or (hStep : CallStep call before event after) {number : Nat}
    (hJoined : after.joined? = some number) :
    event.joinedBy? call = some number ∨
      event.joinedBy? call = none ∧ before.joined? = some number := by
  cases hStep with
  | join _ => exact .inl (by simpa [CallPhase.joined?, CrowdEvent.joinedBy?] using hJoined)
  | share _ _ => exact .inr ⟨rfl, hJoined⟩
  | apart hApart => exact .inr ⟨(CrowdEvent.apart hApart).2.1, hJoined⟩
  | finish _ outcome => cases outcome <;> cases hJoined
  | look found => cases found <;> cases hJoined
  | _ => cases hJoined

omit [DecidableEq ι] in
/-- Who follows a flight goes on doing so, asks again, or returns what the flight brought. -/
theorem of_following {number : Nat} (hStep : CallStep call (.following number) event after) :
    after = .following number ∨ (event = .retry call ∧ after = .asking) ∨
      ∃ result, after = .shared number result := by
  cases hStep with
  | share _ result => exact .inr (.inr ⟨result, rfl⟩)
  | retry _ => exact .inr (.inl ⟨rfl, rfl⟩)
  | apart _ => exact .inl rfl

omit [DecidableEq ι] in
/-- A call that has asked leads or joins before anything else. -/
theorem of_asking (hStep : CallStep call .asking event after) :
    after = .asking ∨ ∃ number, event = .lead call number ∨ event = .join call number := by
  cases hStep with
  | lead number => exact .inr ⟨number, .inl rfl⟩
  | join number => exact .inr ⟨number, .inr rfl⟩
  | apart _ => exact .inl rfl

end CallStep

/-- A claim is always possible. -/
theorem CrowdStep.of_asking {key : ι → κ} {crowd : Crowd ι κ ν ε} {call : ι}
    (hAsking : crowd.phase call = .asking) :
    ∃ number next, CrowdStep key crowd (.lead call number) next ∨
      CrowdStep key crowd (.join call number) next := by
  cases hClaim : crowd.map.claim (key call) with
  | mk part map =>
    cases part with
    | leader number => exact ⟨number, _, .inl (.lead hAsking hClaim)⟩
    | follower number => exact ⟨number, _, .inr (.join hAsking hClaim)⟩

namespace CrowdRun

variable {key : ι → κ} {events : List (CrowdEvent ι κ ν ε)} {crowd : Crowd ι κ ν ε}

/-- A call has led the flight that it is in, once, and no other. -/
theorem filterMap_ledBy? (hRun : CrowdRun key {} events crowd) (call : ι) :
    events.filterMap (·.ledBy? call) = (crowd.phase call).flight?.toList := by
  rw [List.filterMap_eq_flatMap_toList]
  induction hRun with
  | nil => rfl
  | snoc _ hStep ih =>
    rw [List.flatMap_append, ih, List.flatMap_singleton,
      (CallStep.of_step hStep call).flight?_toList]

/-- The resolver of a call has ended with the outcome that the call knows, once. -/
theorem filterMap_endedBy? (hRun : CrowdRun key {} events crowd) (call : ι) :
    events.filterMap (·.endedBy? call) = (crowd.phase call).outcome?.toList := by
  rw [List.filterMap_eq_flatMap_toList]
  induction hRun with
  | nil => rfl
  | snoc _ hStep ih =>
    rw [List.flatMap_append, ih, List.flatMap_singleton,
      (CallStep.of_step hStep call).outcome?_toList]

/-- A call led a flight if and only if it is in it as its leader. -/
theorem lead_mem_iff (hRun : CrowdRun key {} events crowd) {call : ι} {number : Nat} :
    .lead call number ∈ events ↔ (crowd.phase call).flight? = some number := by
  rw [← Option.mem_toList, ← hRun.filterMap_ledBy? call, List.mem_filterMap]
  simp only [CrowdEvent.ledBy?_eq_some_iff, exists_eq_right]

/-- A resolver has ended if and only if its call knows the outcome. -/
theorem finish_mem_iff (hRun : CrowdRun key {} events crowd) {call : ι} {outcome : Outcome ν ε} :
    .finish call outcome ∈ events ↔ (crowd.phase call).outcome? = some outcome := by
  rw [← Option.mem_toList, ← hRun.filterMap_endedBy? call, List.mem_filterMap]
  simp only [CrowdEvent.endedBy?_eq_some_iff, exists_eq_right]

/-- The flight that a call waits or has waited for is the one it joined last. -/
theorem getLast?_joinedBy? (hRun : CrowdRun key {} events crowd) {call : ι} {number : Nat}
    (hJoined : (crowd.phase call).joined? = some number) :
    (events.filterMap (·.joinedBy? call)).getLast? = some number := by
  induction hRun with
  | nil => cases hJoined
  | snoc _ hStep ih =>
    rw [List.filterMap_append]
    rcases (CallStep.of_step hStep call).joinedBy?_or hJoined with hNow | ⟨hNot, hBefore⟩
    · simp [hNow]
    · simpa [hNot] using ih hBefore

end CrowdRun

/-! ## One resolver at a time -/

omit [DecidableEq ι] [DecidableEq κ] in
/-- A resolver runs since its call began to lead. -/
theorem CallStep.lead_or_resolving {event : CrowdEvent ι κ ν ε} {call : ι}
    {before : CallPhase ν ε} {number : Nat}
    (hStep : CallStep call before event (.resolving number)) :
    event = .lead call number ∨ event ≠ .lead call number ∧ before = .resolving number := by
  generalize hAfter : CallPhase.resolving number = after at hStep
  cases hStep with
  | lead _ =>
    cases hAfter
    exact .inl rfl
  | finish _ outcome => cases outcome <;> cases hAfter
  | look found => cases found <;> cases hAfter
  | apart hApart =>
    subst hAfter
    refine .inr ⟨?_, rfl⟩
    rintro rfl
    exact hApart rfl
  | _ => cases hAfter

namespace Orderly

variable {key : ι → κ} {crowd next : Crowd ι κ ν ε} {event : CrowdEvent ι κ ν ε} {call : ι}
  {number : Nat}

/-- While its resolver runs a flight keeps its key, unless the key is forgotten. -/
theorem current_step (hOrderly : Orderly key crowd) (hStep : CrowdStep key crowd event next)
    (hResolving : crowd.phase call = .resolving number)
    (hCurrent : crowd.map.current.get? (key call) = some number)
    (hKept : ¬ event.Forgets (key call)) : next.map.current.get? (key call) = some number := by
  cases hStep with
  | lead _ hClaim =>
    obtain ⟨hFree, -, rfl⟩ := FlightMap.claim_eq_leader_iff.1 hClaim
    rw [Crowd.map_enter, FlightMap.current_opened, if_neg, hCurrent]
    intro hKey
    rw [← hKey, hCurrent] at hFree
    cases hFree
  | join _ hClaim =>
    obtain ⟨-, rfl⟩ := FlightMap.claim_eq_follower_iff.1 hClaim
    exact hCurrent
  | @free other freed outcome hFreeing =>
    refine FlightMap.current_removeIfCurrent_eq_some_iff.2 ⟨hCurrent, ?_⟩
    rintro ⟨-, rfl⟩
    -- Only the leader of a flight frees its key, and this one has not come so far.
    have hSame : call = other := hOrderly.unique (by rw [hResolving]; rfl) (by rw [hFreeing]; rfl)
    rw [← hSame, hResolving] at hFreeing
    cases hFreeing
  | remove other =>
    rwa [FlightMap.remove, OrderedMap.get?_erase_of_ne _ fun hKey => hKept hKey.symm]
  | clear => exact absurd trivial hKept
  | _ => exact hCurrent

end Orderly

namespace CrowdRun

variable {key : ι → κ} {events : List (CrowdEvent ι κ ν ε)} {crowd : Crowd ι κ ν ε}

/-- **Since a key was last forgotten** it belongs to each flight that was claimed for it and whose
    resolver still runs. -/
theorem current_of_resolving (hRun : CrowdRun key {} events crowd) {call : ι} {number : Nat}
    (hResolving : crowd.phase call = .resolving number) :
    ∀ later, later <:+ events → .lead call number ∈ later →
      (∀ event ∈ later, ¬ event.Forgets (key call)) →
      crowd.map.current.get? (key call) = some number := by
  induction hRun with
  | nil => cases hResolving
  | @snoc events event crowd next hRun hStep ih =>
    intro later hLater hLead hKept
    rcases List.suffix_concat_iff.1 hLater with rfl | ⟨before, rfl, hBefore⟩
    · cases hLead
    -- Its resolver was begun by this very step, or it ran before and the step left the key alone.
    rcases (hResolving ▸ CallStep.of_step hStep call).lead_or_resolving with rfl | ⟨hNot, hAlready⟩
    · cases hStep with
      | lead _ hClaim =>
        obtain ⟨-, rfl, rfl⟩ := FlightMap.claim_eq_leader_iff.1 hClaim
        rw [Crowd.map_enter, FlightMap.current_opened, if_pos rfl]
    · obtain ⟨hKeptBefore, hKeptNow⟩ := List.forall_mem_append.1 hKept
      have hLeadBefore : .lead call number ∈ before := by
        rcases List.mem_append.1 hLead with hMem | hMem
        · exact hMem
        · exact absurd (List.mem_singleton.1 hMem).symm hNot
      have hCurrent := ih hAlready before hBefore hLeadBefore hKeptBefore
      exact (Orderly.run hRun).current_step hStep hAlready hCurrent
        (hKeptNow event (List.mem_singleton_self event))

end CrowdRun

/-! ## What holds in every order of steps -/

/-- `SingleFlight key events crowd`: what can be said of a crowd after these events. -/
structure SingleFlight (key : ι → κ) (events : List (CrowdEvent ι κ ν ε))
    (crowd : Crowd ι κ ν ε) : Prop where
  /-- The flight of a key is resolved, or is resolving and has exactly one leader that lives. -/
  slots : ∀ {k number}, crowd.map.current.get? k = some number →
    (∃ value, crowd.map.flight number = .resolved value) ∨
      crowd.map.flight number = .resolving ∧
        ∃ leader, key leader = k ∧
          ∀ call, (crowd.phase call).leads? = some number ↔ call = leader
  /-- As long as a key is not forgotten, at most one of the resolvers that were begun for it
      runs. -/
  oneResolver : ∀ {k later}, later <:+ events → (∀ event ∈ later, ¬ event.Forgets k) →
    ∀ {one other m n}, key one = k → key other = k →
      .lead one m ∈ later → .lead other n ∈ later →
      crowd.phase one = .resolving m → crowd.phase other = .resolving n → one = other
  /-- Who returns what a flight brought joined this flight last; it has one leader, who asked for
      the same key, and the resolver of this leader had one outcome, which is what is returned. -/
  sharedOutcome : ∀ {call number result}, crowd.phase call = .shared number result →
    (events.filterMap (·.joinedBy? call)).getLast? = some number ∧
      ∃ leader, key leader = key call ∧ (∀ other, .lead other number ∈ events ↔ other = leader) ∧
        ∀ outcome, .finish leader outcome ∈ events ↔ outcome = .ofExcept result
  /-- Who follows a leader that has crashed gets nothing from it, and asks again: that is all it can
      do, and it can do it when the leader has taken the sections that are left to it. -/
  crashed : ∀ {call number leader}, crowd.phase call = .following number →
    .lead leader number ∈ events → .finish leader .crash ∈ events →
      (∀ {event next}, CrowdStep key crowd event next →
        next.phase call = .following number ∨
          event = .retry call ∧ next.phase call = .asking) ∧
      ((∃ next, CrowdStep key crowd (.retry call) next) ∨
        (crowd.phase leader).leads? = some number ∧
          ∃ next, CrowdStep key crowd (.free leader) next ∨
            CrowdStep key crowd (.settle leader) next)
  /-- Who asks claims its key next, and nothing can keep it from doing so. -/
  asking : ∀ {call}, crowd.phase call = .asking →
    (∀ {event next}, CrowdStep key crowd event next → next.phase call = .asking ∨
      ∃ number, event = .lead call number ∨ event = .join call number) ∧
    ∃ number next, CrowdStep key crowd (.lead call number) next ∨
      CrowdStep key crowd (.join call number) next
  /-- A call begins to lead, and its resolver to run, at most once. -/
  once : ∀ call, (events.filterMap (·.ledBy? call)).length ≤ 1
  /-- No resolver runs that was not begun so. -/
  begun : ∀ {call number}, crowd.phase call = .resolving number → .lead call number ∈ events

namespace Orderly

variable {key : ι → κ} {crowd : Crowd ι κ ν ε}

omit [DecidableEq ι] in
/-- A key stands for a flight that is resolved, or for one that has one leader. -/
theorem resolved_or_led (hOrderly : Orderly key crowd) {k : κ} {number : Nat}
    (hCurrent : crowd.map.current.get? k = some number) :
    (∃ value, crowd.map.flight number = .resolved value) ∨
      crowd.map.flight number = .resolving ∧
        ∃ leader, key leader = k ∧
          ∀ call, (crowd.phase call).leads? = some number ↔ call = leader := by
  obtain ⟨leader, hKey, hHolds⟩ := hOrderly.current hCurrent
  have hFlight := CallPhase.flight?_of_holds? hHolds
  rw [(hOrderly.flight hFlight).2]
  rcases CallPhase.leads?_or_resolved hHolds with hLeads | hResolved
  · refine .inr ⟨(CallPhase.flight?_of_leads? hLeads).2, leader, hKey, fun call => ?_⟩
    constructor
    · intro hCall
      exact hOrderly.unique (CallPhase.flight?_of_leads? hCall).1 hFlight
    · rintro rfl
      exact hLeads
  · exact .inl hResolved

omit [DecidableEq ι] in
/-- What has become of a flight is the outcome of its leader's resolver. -/
theorem outcome?_of_flight (hOrderly : Orderly key crowd) {leader : ι} {number : Nat}
    (hLeader : (crowd.phase leader).flight? = some number) {outcome : Outcome ν ε}
    (hFlight : crowd.map.flight number = .ofOutcome outcome) :
    (crowd.phase leader).outcome? = some outcome :=
  CallPhase.outcome?_of_made ((hOrderly.flight hLeader).2.symm.trans hFlight)

end Orderly

namespace CrowdRun

variable {key : ι → κ} {events : List (CrowdEvent ι κ ν ε)} {crowd : Crowd ι κ ν ε}

/-- Two resolvers never run for one key, as long as it is not forgotten. -/
theorem one_resolver (hRun : CrowdRun key {} events crowd) {k : κ}
    {later : List (CrowdEvent ι κ ν ε)} (hLater : later <:+ events)
    (hKept : ∀ event ∈ later, ¬ event.Forgets k) {one other : ι} {m n : Nat}
    (hOne : key one = k) (hOther : key other = k) (hLeadOne : .lead one m ∈ later)
    (hLeadOther : .lead other n ∈ later) (hRunsOne : crowd.phase one = .resolving m)
    (hRunsOther : crowd.phase other = .resolving n) : one = other := by
  subst hOne
  -- Both flights have the key, and a key has one flight; so they are one, and it has one leader.
  have hCurrent := hRun.current_of_resolving hRunsOne later hLater hLeadOne hKept
  have hCurrent' := hRun.current_of_resolving hRunsOther later hLater hLeadOther
    (by rwa [hOther])
  rw [hOther, hCurrent] at hCurrent'
  cases hCurrent'
  exact (Orderly.run hRun).unique (by rw [hRunsOne]; rfl) (by rw [hRunsOther]; rfl)

/-- A result that is shared is that of the one leader of the flight. -/
theorem shared_outcome (hRun : CrowdRun key {} events crowd) {call : ι} {number : Nat}
    {result : Except ε ν} (hShared : crowd.phase call = .shared number result) :
    ∃ leader, key leader = key call ∧ (∀ other, .lead other number ∈ events ↔ other = leader) ∧
      ∀ outcome, .finish leader outcome ∈ events ↔ outcome = .ofExcept result := by
  have hOrderly := Orderly.run hRun
  obtain ⟨leader, hKey, hLeader⟩ := hOrderly.joined (by rw [hShared]; rfl : _ = some number)
  refine ⟨leader, hKey, fun other => ?_, fun outcome => ?_⟩
  · rw [hRun.lead_mem_iff]
    constructor
    · intro hOther
      exact hOrderly.unique hOther hLeader
    · rintro rfl
      exact hLeader
  · rw [hRun.finish_mem_iff, hOrderly.outcome?_of_flight hLeader (hOrderly.shared hShared),
      Option.some.injEq, eq_comm]

/-- A follower of a flight that crashed shares nothing: it can only ask again. -/
theorem following_of_crash (hRun : CrowdRun key {} events crowd) {call leader : ι} {number : Nat}
    (hFollowing : crowd.phase call = .following number) (hLead : .lead leader number ∈ events)
    (hCrash : .finish leader .crash ∈ events) {event : CrowdEvent ι κ ν ε} {next : Crowd ι κ ν ε}
    (hStep : CrowdStep key crowd event next) :
    next.phase call = .following number ∨ event = .retry call ∧ next.phase call = .asking := by
  rcases (hFollowing ▸ CallStep.of_step hStep call).of_following with
    hStays | hAgain | ⟨result, hShared⟩
  · exact .inl hStays
  · exact .inr hAgain
  · obtain ⟨other, -, hLeader, hOutcome⟩ := (hRun.snoc hStep).shared_outcome hShared
    obtain rfl := (hLeader leader).1 (List.mem_append_left _ hLead)
    have hNever := (hOutcome .crash).1 (List.mem_append_left _ hCrash)
    cases result <;> cases hNever

theorem retry_of_crash (hRun : CrowdRun key {} events crowd) {call leader : ι} {number : Nat}
    (hFollowing : crowd.phase call = .following number) (hLead : .lead leader number ∈ events)
    (hCrash : .finish leader .crash ∈ events) :
    (∃ next, CrowdStep key crowd (.retry call) next) ∨
      (crowd.phase leader).leads? = some number ∧
        ∃ next, CrowdStep key crowd (.free leader) next ∨
          CrowdStep key crowd (.settle leader) next := by
  have hLeader := hRun.lead_mem_iff.1 hLead
  have hOutcome := hRun.finish_mem_iff.1 hCrash
  -- The leader has still to take the flight out, to land it, or has done both.
  cases hPhase : crowd.phase leader with
  | freeing _ _ =>
    rw [hPhase] at hLeader
    exact .inr ⟨hLeader, _, .inl (.free hPhase)⟩
  | landing _ _ =>
    rw [hPhase] at hLeader
    exact .inr ⟨hLeader, _, .inr (.settle hPhase)⟩
  | led _ outcome =>
    have hFlight := ((Orderly.run hRun).flight hLeader).2
    rw [hPhase] at hFlight hOutcome
    cases hOutcome
    exact .inl ⟨_, .retry hFollowing hFlight⟩
  | _ =>
    rw [hPhase] at hOutcome
    cases hOutcome

/-- **A single flight**, in every order of steps of any number of calls. -/
theorem single_flight (hRun : CrowdRun key {} events crowd) : SingleFlight key events crowd where
  slots := (Orderly.run hRun).resolved_or_led
  oneResolver := hRun.one_resolver
  sharedOutcome := fun hShared =>
    ⟨hRun.getLast?_joinedBy? (by rw [hShared]; rfl), hRun.shared_outcome hShared⟩
  crashed := fun hFollowing hLead hCrash =>
    ⟨hRun.following_of_crash hFollowing hLead hCrash, hRun.retry_of_crash hFollowing hLead hCrash⟩
  asking := fun hAsking =>
    ⟨fun hStep => (hAsking ▸ CallStep.of_step hStep _).of_asking, CrowdStep.of_asking hAsking⟩
  once := by
    intro call
    rw [hRun.filterMap_ledBy?]
    exact Option.length_toList_le
  begun := fun hResolving => hRun.lead_mem_iff.2 (by rw [hResolving]; rfl)

/-- Of three calls for one key the first leads and crashes; the second, which follows it, asks again
    and leads; the third follows the second and shares its value. -/
def crashThenValue : List (CrowdEvent Nat Nat Nat String) := [
  .ask 0, .lead 0 0, .ask 1, .join 1 0, .finish 0 .crash, .free 0, .settle 0,
  .retry 1, .lead 1 1, .ask 2, .join 2 1, .finish 1 (.value 7), .settle 1, .share 2 (.ok 7)]

theorem single_flight_crashThenValue :
    ∃ crowd : Crowd Nat Nat Nat String, CrowdRun (fun _ => 0) {} crashThenValue crowd ∧
      crowd.phase 2 = .shared 1 (.ok 7) ∧ crowd.map.get? 0 = some 7 ∧
      SingleFlight (fun _ => 0) crashThenValue crowd := by
  have hFirst := (CrowdRun.nil : CrowdRun (fun _ => 0) ({} : Crowd Nat Nat Nat String) [] _)
    |>.snoc (show CrowdStep _ _ (.ask 0) _ from .ask rfl)
    |>.snoc (show CrowdStep _ _ (.lead 0 0) _ from .lead rfl rfl)
    |>.snoc (show CrowdStep _ _ (.ask 1) _ from .ask rfl)
    |>.snoc (show CrowdStep _ _ (.join 1 0) _ from .join rfl rfl)
    |>.snoc (show CrowdStep _ _ (.finish 0 .crash) _ from .finish _ rfl)
    |>.snoc (show CrowdStep _ _ (.free 0) _ from .free rfl)
    |>.snoc (show CrowdStep _ _ (.settle 0) _ from .settle rfl)
  have hSecond := hFirst
    |>.snoc (show CrowdStep _ _ (.retry 1) _ from .retry rfl rfl)
    |>.snoc (show CrowdStep _ _ (.lead 1 1) _ from .lead rfl rfl)
    |>.snoc (show CrowdStep _ _ (.ask 2) _ from .ask rfl)
    |>.snoc (show CrowdStep _ _ (.join 2 1) _ from .join rfl rfl)
    |>.snoc (show CrowdStep _ _ (.finish 1 (.value 7)) _ from .finish _ rfl)
    |>.snoc (show CrowdStep _ _ (.settle 1) _ from .settle rfl)
    |>.snoc (show CrowdStep _ _ (.share 2 (.ok 7)) _ from .share rfl rfl)
  exact ⟨_, hSecond, rfl, rfl, single_flight hSecond⟩

end CrowdRun

end Lineage
