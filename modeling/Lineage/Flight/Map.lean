/-
  Flight maps: memo tables in which a value is resolved once, however many ask for it.

  Whoever asks first for a key CLAIMS it and becomes the leader of a flight; whoever asks while
  that flight is under way follows it.  The leader runs its resolver and then LANDS the flight:

      value     the flight is resolved and stays in the map;
      failure   the key is freed, followers share the failure;
      crash     the key is freed, followers get nothing and ask again.

  A key may be removed, and claimed anew, while a flight for it is still under way.  So a flight has
  an identity of its own, its number, and landing frees a key only if the key still belongs to that
  very flight.  What became of a flight can be asked for as long as someone follows it, also when
  its key is long gone; `flights` keeps all of them.
-/
import Lineage.OrderedMap
import Lineage.Outcome

namespace Lineage

/-- What has become of a flight. -/
inductive FlightState (ν ε : Type) where
  | resolving
  | resolved (value : ν)
  | failed (error : ε)
  | abandoned
  deriving DecidableEq, Repr

/-- What a map says of a key. -/
inductive EntryState where
  | unresolved
  | resolving
  | resolved
  deriving DecidableEq, Repr

/-- The flights that were ever opened, by number, and the one that each key stands for now. -/
structure FlightMap (κ ν ε : Type) where
  /-- The number of the flight that a key belongs to. -/
  current : OrderedMap κ Nat := .empty
  /-- All flights, by number. -/
  flights : List (FlightState ν ε) := []

namespace FlightMap

variable {κ ν ε σ : Type}

/-- A map in which nothing was ever asked for. -/
def empty : FlightMap κ ν ε := {}

instance : Inhabited (FlightMap κ ν ε) := ⟨empty⟩

/-! ## Flights -/

/-- The state of a flight; one that never was is over. -/
def flight (map : FlightMap κ ν ε) (number : Nat) : FlightState ν ε :=
  map.flights[number]?.getD .abandoned

/-- Say what became of a flight. -/
def settle (map : FlightMap κ ν ε) (number : Nat) (state : FlightState ν ε) : FlightMap κ ν ε :=
  { map with flights := map.flights.set number state }

variable [DecidableEq κ]

/-- Free `key` if it still belongs to the flight `number`. -/
def removeIfCurrent (map : FlightMap κ ν ε) (key : κ) (number : Nat) : FlightMap κ ν ε :=
  if map.current.get? key = some number then { map with current := map.current.erase key }
  else map

/-! ## Asking for a key -/

/-- The part in which one asks. -/
inductive Claim where
  | leader (number : Nat)
  | follower (number : Nat)
  deriving DecidableEq, Repr

/-- Ask for `key`: follow its flight, or open one. -/
def claim (map : FlightMap κ ν ε) (key : κ) : Claim × FlightMap κ ν ε :=
  match map.current.get? key with
  | some number => (.follower number, map)
  | none =>
    let number := map.flights.length
    (.leader number,
      { current := map.current.insert key number, flights := map.flights ++ [.resolving] })

/-- End the flight `number` for `key` with the outcome of its leader. -/
def land (map : FlightMap κ ν ε) (key : κ) (number : Nat) : Outcome ν ε → FlightMap κ ν ε
  | .value result => map.settle number (.resolved result)
  | .failure error => (map.removeIfCurrent key number).settle number (.failed error)
  | .crash => (map.removeIfCurrent key number).settle number .abandoned

/-- What asking for a key comes to. -/
inductive Resolution (ν ε : Type) where
  /-- One's own resolver ran, and this is its outcome. -/
  | ran (outcome : Outcome ν ε)
  /-- The flight that one followed brought this. -/
  | shared (result : Except ε ν)
  /-- The flight that one follows is still under way. -/
  | waiting (number : Nat)

/-- What one comes to who follows the flight `number`. -/
def follow (map : FlightMap κ ν ε) (number : Nat) : Resolution ν ε :=
  match map.flight number with
  | .resolved value => .shared (.ok value)
  | .failed error => .shared (.error error)
  | .resolving | .abandoned => .waiting number

/-- Ask for `key`, with `resolver` to run if it falls to oneself to lead.  The resolver may use
    the map, and may change a state `s` of its own. -/
def resolve (map : FlightMap κ ν ε) (key : κ) (s : σ)
    (resolver : FlightMap κ ν ε → σ → Outcome ν ε × FlightMap κ ν ε × σ) :
    Resolution ν ε × FlightMap κ ν ε × σ :=
  match map.claim key with
  | (.follower number, map) => (map.follow number, map, s)
  | (.leader number, map) =>
    let (outcome, map, s) := resolver map s
    (.ran outcome, map.land key number outcome, s)

/-! ## Looking and forgetting -/

/-- The value of a key that is resolved. -/
def get? (map : FlightMap κ ν ε) (key : κ) : Option ν :=
  match (map.current.get? key).map map.flight with
  | some (.resolved value) => some value
  | _ => none

/-- How far the value of a key has come, as an observer sees it. -/
def state (map : FlightMap κ ν ε) (key : κ) : EntryState :=
  match (map.current.get? key).map map.flight with
  | some .resolving => .resolving
  | some (.resolved _) => .resolved
  | _ => .unresolved

/-- Forget a key.  A flight that is under way for it goes on, but will not come back to it. -/
def remove (map : FlightMap κ ν ε) (key : κ) : FlightMap κ ν ε :=
  { map with current := map.current.erase key }

/-- Forget all keys. -/
def clear (map : FlightMap κ ν ε) : FlightMap κ ν ε := { map with current := .empty }

omit [DecidableEq κ] in
/-- The number of keys that are resolved. -/
def resolvedCount (map : FlightMap κ ν ε) : Nat :=
  map.current.values.countP fun number =>
    match map.flight number with
    | .resolved _ => true
    | _ => false

end FlightMap

end Lineage
