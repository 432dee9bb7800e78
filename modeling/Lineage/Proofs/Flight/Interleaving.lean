/-
  Any number of callers on one flight map, in any order of steps.

  What a caller does to a map it does in sections, and only a section is atomic: to claim a key; to
  free it after a resolver that brought no value; to say what became of a flight; to look at the
  flight that one waits for.  Between two sections of one caller all others may take any number of
  theirs, and resolvers run between sections only.  A resolver that uses the map itself is one more
  caller.  Keys are removed, and the map is cleared, by anyone at any time.

  `CrowdStep` has one constructor for each section and does to the map what the operation on flight
  maps does there; that a call which nobody interrupts comes to what `FlightMap.resolve` comes to is
  `exists_run_of_resolve`.  The waiting itself is no step: who follows a flight that is under way
  stays where it is, however often it is woken.
-/
import Lineage.Proofs.Flight.Landing
import Mathlib.Logic.Function.Basic

namespace Lineage

/-! ## Callers -/

/-- How far a call has come. -/
inductive CallPhase (ν ε : Type) where
  | idle
  /-- It is about to claim its key. -/
  | asking
  /-- It leads a flight, and its resolver is running. -/
  | resolving (number : Nat)
  /-- Its resolver has brought no value, and it is about to free its key. -/
  | freeing (number : Nat) (outcome : Outcome ν ε)
  /-- It is about to say what became of its flight. -/
  | landing (number : Nat) (outcome : Outcome ν ε)
  /-- It waits for a flight that another call leads. -/
  | following (number : Nat)
  /-- It only wants to see a value, and has found the flight that may have one. -/
  | looking (number : Nat)
  /-- It is over, with the outcome of its own resolver. -/
  | led (number : Nat) (outcome : Outcome ν ε)
  /-- It is over, with what a flight brought that another call led. -/
  | shared (number : Nat) (result : Except ε ν)
  /-- It is over, and has seen a value or none. -/
  | saw (value : Option ν)

namespace CallPhase

variable {ν ε : Type}

/-- Where a call is that leads, when its resolver has ended: a value leaves the key as it is. -/
def ended (number : Nat) : Outcome ν ε → CallPhase ν ε
  | .value result => landing number (.value result)
  | .failure error => freeing number (.failure error)
  | .crash => freeing number .crash

/-- Where a call is that looks, when it has looked its key up. -/
def found : Option Nat → CallPhase ν ε
  | some number => looking number
  | none => saw none

/-- The flight that a call leads, while it does. -/
def leads? : CallPhase ν ε → Option Nat
  | resolving number | freeing number _ | landing number _ => some number
  | idle | asking | following _ | looking _ | led _ _ | shared _ _ | saw _ => none

/-- The flight that a call leads or has led. -/
def flight? : CallPhase ν ε → Option Nat
  | resolving number | freeing number _ | landing number _ | led number _ => some number
  | idle | asking | following _ | looking _ | shared _ _ | saw _ => none

/-- How the resolver of a call has ended. -/
def outcome? : CallPhase ν ε → Option (Outcome ν ε)
  | freeing _ outcome | landing _ outcome | led _ outcome => some outcome
  | idle | asking | resolving _ | following _ | looking _ | shared _ _ | saw _ => none

/-- The flight of another call that a call waits for, or has waited for. -/
def joined? : CallPhase ν ε → Option Nat
  | following number | shared number _ => some number
  | idle | asking | resolving _ | freeing _ _ | landing _ _ | looking _ | led _ _ | saw _ => none

end CallPhase

/-- A map, and how far each call on it has come. -/
structure Crowd (ι κ ν ε : Type) where
  map : FlightMap κ ν ε := .empty
  phase : ι → CallPhase ν ε := fun _ => .idle

/-- The crowd in which one call has come to `phase`. -/
def Crowd.enter {ι κ ν ε : Type} [DecidableEq ι] (crowd : Crowd ι κ ν ε) (call : ι)
    (phase : CallPhase ν ε) : Crowd ι κ ν ε :=
  { crowd with phase := Function.update crowd.phase call phase }

/-! ## Steps -/

/-- What a step shows. -/
inductive CrowdEvent (ι κ ν ε : Type) where
  | ask (call : ι)
  | lead (call : ι) (number : Nat)
  | join (call : ι) (number : Nat)
  | finish (call : ι) (outcome : Outcome ν ε)
  | free (call : ι)
  | settle (call : ι)
  | share (call : ι) (result : Except ε ν)
  | retry (call : ι)
  | look (call : ι)
  | see (call : ι)
  | remove (key : κ)
  | clear

namespace CrowdEvent

variable {ι κ ν ε : Type}

/-- Does the event forget `key`? -/
def Forgets (key : κ) : CrowdEvent ι κ ν ε → Prop
  | remove other => other = key
  | clear => True
  | _ => False

/-- The call whose section it is. -/
def call? : CrowdEvent ι κ ν ε → Option ι
  | ask call | lead call _ | join call _ | finish call _ | free call | settle call | share call _
  | retry call | look call | see call => some call
  | remove _ | clear => none

variable [DecidableEq ι]

/-- The flight that `call` begins to lead, and its resolver to run. -/
def ledBy? (call : ι) : CrowdEvent ι κ ν ε → Option Nat
  | lead leader number => if leader = call then some number else none
  | _ => none

/-- The flight that `call` begins to follow. -/
def joinedBy? (call : ι) : CrowdEvent ι κ ν ε → Option Nat
  | join follower number => if follower = call then some number else none
  | _ => none

/-- How the resolver of `call` ends. -/
def endedBy? (call : ι) : CrowdEvent ι κ ν ε → Option (Outcome ν ε)
  | finish leader outcome => if leader = call then some outcome else none
  | _ => none

end CrowdEvent

variable {ι κ ν ε : Type} [DecidableEq ι] [DecidableEq κ]

/-- One atomic section of one call, or the removal of keys.  Each call has a key of its own choice,
    and wants either its value resolved or just to see it. -/
inductive CrowdStep (key : ι → κ) : Crowd ι κ ν ε → CrowdEvent ι κ ν ε → Crowd ι κ ν ε → Prop
  | ask {crowd : Crowd ι κ ν ε} {call : ι} (hIdle : crowd.phase call = .idle) :
      CrowdStep key crowd (.ask call) (crowd.enter call .asking)
  | lead {crowd : Crowd ι κ ν ε} {call : ι} {number : Nat} {map : FlightMap κ ν ε}
      (hAsking : crowd.phase call = .asking)
      (hClaim : crowd.map.claim (key call) = (.leader number, map)) :
      CrowdStep key crowd (.lead call number) ({ crowd with map }.enter call (.resolving number))
  | join {crowd : Crowd ι κ ν ε} {call : ι} {number : Nat} {map : FlightMap κ ν ε}
      (hAsking : crowd.phase call = .asking)
      (hClaim : crowd.map.claim (key call) = (.follower number, map)) :
      CrowdStep key crowd (.join call number) ({ crowd with map }.enter call (.following number))
  | finish {crowd : Crowd ι κ ν ε} {call : ι} {number : Nat} (outcome : Outcome ν ε)
      (hResolving : crowd.phase call = .resolving number) :
      CrowdStep key crowd (.finish call outcome) (crowd.enter call (.ended number outcome))
  | free {crowd : Crowd ι κ ν ε} {call : ι} {number : Nat} {outcome : Outcome ν ε}
      (hFreeing : crowd.phase call = .freeing number outcome) :
      CrowdStep key crowd (.free call)
        ({ crowd with map := crowd.map.removeIfCurrent (key call) number }.enter call
          (.landing number outcome))
  | settle {crowd : Crowd ι κ ν ε} {call : ι} {number : Nat} {outcome : Outcome ν ε}
      (hLanding : crowd.phase call = .landing number outcome) :
      CrowdStep key crowd (.settle call)
        ({ crowd with map := crowd.map.settle number (.ofOutcome outcome) }.enter call
          (.led number outcome))
  | share {crowd : Crowd ι κ ν ε} {call : ι} {number : Nat} {result : Except ε ν}
      (hFollowing : crowd.phase call = .following number)
      (hFlight : crowd.map.follow number = .shared result) :
      CrowdStep key crowd (.share call result) (crowd.enter call (.shared number result))
  | retry {crowd : Crowd ι κ ν ε} {call : ι} {number : Nat}
      (hFollowing : crowd.phase call = .following number)
      (hFlight : crowd.map.flight number = .abandoned) :
      CrowdStep key crowd (.retry call) (crowd.enter call .asking)
  | look {crowd : Crowd ι κ ν ε} {call : ι} (hIdle : crowd.phase call = .idle) :
      CrowdStep key crowd (.look call)
        (crowd.enter call (.found (crowd.map.current.get? (key call))))
  | see {crowd : Crowd ι κ ν ε} {call : ι} {number : Nat}
      (hLooking : crowd.phase call = .looking number) :
      CrowdStep key crowd (.see call) (crowd.enter call (.saw (crowd.map.flight number).value?))
  | remove {crowd : Crowd ι κ ν ε} (other : κ) :
      CrowdStep key crowd (.remove other) { crowd with map := crowd.map.remove other }
  | clear {crowd : Crowd ι κ ν ε} :
      CrowdStep key crowd .clear { crowd with map := crowd.map.clear }

/-- `CrowdRun key start events crowd`: from `start` the events lead to `crowd`. -/
inductive CrowdRun (key : ι → κ) (start : Crowd ι κ ν ε) :
    List (CrowdEvent ι κ ν ε) → Crowd ι κ ν ε → Prop
  | nil : CrowdRun key start [] start
  | snoc {events : List (CrowdEvent ι κ ν ε)} {event : CrowdEvent ι κ ν ε}
      {crowd next : Crowd ι κ ν ε} (hRun : CrowdRun key start events crowd)
      (hStep : CrowdStep key crowd event next) : CrowdRun key start (events ++ [event]) next

/-! ## Entering a phase -/

section

omit [DecidableEq κ]

@[simp] theorem Crowd.phase_enter_self (crowd : Crowd ι κ ν ε) (call : ι) (phase : CallPhase ν ε) :
    (crowd.enter call phase).phase call = phase := by
  simp only [enter, Function.update_self]

theorem Crowd.phase_enter_of_ne (crowd : Crowd ι κ ν ε) {call other : ι} (hNe : other ≠ call)
    (phase : CallPhase ν ε) : (crowd.enter call phase).phase other = crowd.phase other := by
  simp only [enter, Function.update_of_ne hNe]

@[simp] theorem Crowd.map_enter (crowd : Crowd ι κ ν ε) (call : ι) (phase : CallPhase ν ε) :
    (crowd.enter call phase).map = crowd.map := rfl

/-- Of the phases that one call enters only the last one counts. -/
@[simp] theorem Crowd.enter_enter (crowd : Crowd ι κ ν ε) (call : ι) (map : FlightMap κ ν ε)
    (before after : CallPhase ν ε) :
    Crowd.enter { crowd.enter call before with map } call after =
      Crowd.enter { crowd with map } call after := by
  simp only [enter, Function.update_idem]

end

/-! ## A call that nobody interrupts -/

/-- A call has come to what asking for its key comes to. -/
def CallPhase.HasCome {ν ε : Type} : CallPhase ν ε → FlightMap.Resolution ν ε → Prop
  | led _ outcome, .ran own => outcome = own
  | shared _ result, .shared brought => result = brought
  | following number, .waiting awaited => number = awaited
  | _, _ => False

/-- A call that leads takes its sections one after the other: together they land its flight. -/
theorem exists_run_of_lead (key : ι → κ) {crowd : Crowd ι κ ν ε} {call : ι}
    (hAsking : crowd.phase call = .asking) {number : Nat} {map : FlightMap κ ν ε}
    (hClaim : crowd.map.claim (key call) = (.leader number, map)) (own : Outcome ν ε) :
    ∃ events, CrowdRun key crowd events
      (Crowd.enter { crowd with map := map.land (key call) number own } call
        (.led number own)) := by
  have hLead := CrowdRun.nil.snoc (CrowdStep.lead hAsking hClaim)
  have hFinish := hLead.snoc (.finish own (Crowd.phase_enter_self _ _ _))
  -- Only a flight without a value is taken out of its key before it is settled.
  cases own with
  | value result =>
    have hSettle := hFinish.snoc (.settle (Crowd.phase_enter_self _ _ _))
    simp only [Crowd.enter_enter, Crowd.map_enter] at hSettle
    exact ⟨_, hSettle⟩
  | failure _ | crash =>
    have hFree := hFinish.snoc (.free (Crowd.phase_enter_self _ _ _))
    have hSettle := hFree.snoc (.settle (Crowd.phase_enter_self _ _ _))
    simp only [Crowd.enter_enter, Crowd.map_enter] at hSettle
    exact ⟨_, hSettle⟩

/-- **The sections of a call make up asking for its key.**  If nobody comes in between, they leave
    the map that `FlightMap.resolve` leaves, and the call has come to what that comes to. -/
theorem exists_run_of_resolve (key : ι → κ) {crowd : Crowd ι κ ν ε} {call : ι}
    (hAsking : crowd.phase call = .asking) (own : Outcome ν ε) :
    ∃ events phase,
      CrowdRun key crowd events (Crowd.enter { crowd with
        map := (crowd.map.resolve (key call) () fun map _ => (own, map, ())).2.1 } call phase) ∧
      phase.HasCome (crowd.map.resolve (key call) () fun map _ => (own, map, ())).1 := by
  rw [FlightMap.resolve]
  -- A leader goes all the way; a follower joins, and shares if there is a result to share.
  cases hClaim : crowd.map.claim (key call) with
  | mk part map =>
    cases part with
    | leader number =>
      obtain ⟨events, hRun⟩ := exists_run_of_lead key hAsking hClaim own
      exact ⟨events, .led number own, hRun, rfl⟩
    | follower number =>
      have hJoin := CrowdRun.nil.snoc (CrowdStep.join hAsking hClaim)
      by_cases hShared : ∃ result, map.follow number = .shared result
      · obtain ⟨result, hFollow⟩ := hShared
        have hShare := hJoin.snoc (.share (Crowd.phase_enter_self _ _ _) hFollow)
        have hEnter := Crowd.enter_enter { crowd with map } call map (.following number)
          (.shared number result)
        refine ⟨_, .shared number result, hEnter ▸ hShare, ?_⟩
        dsimp only
        rw [hFollow]
        rfl
      · have hWaiting := FlightMap.follow_of_forall_ne_shared (not_exists.1 hShared)
        refine ⟨_, .following number, hJoin, ?_⟩
        dsimp only
        rw [hWaiting]
        rfl

end Lineage
