/-
  Scenarios: what can be done to a flight map, also while a flight is under way.

  A `resolve` step asks for a key with a resolver that first performs steps of its own on the same
  map and then has a given outcome; so steps nest.  A `follow` step stands for someone else who asks
  for a key at that moment.  One who has to wait is woken when the flight of the enclosing step has
  landed, in the order of asking, and after a crash asks again.
-/
import Lineage.Flight.Map

namespace Lineage

/-- One use of a map; a resolver may use the map again while it runs. -/
inductive FlightStep (κ ν ε : Type) where
  | resolve (key : κ) (during : List (FlightStep κ ν ε)) (outcome : Outcome ν ε)
  | follow (key : κ) (own : Outcome ν ε)
  | get (key : κ)
  | state (key : κ)
  | remove (key : κ)
  | clear

/-- What one use gives back. -/
inductive FlightAnswer (ν ε : Type) where
  /-- What a `resolve` step came to, the answers of the steps inside it, and the outcomes of those
      who followed meanwhile. -/
  | resolution (result : FlightMap.Resolution ν ε) (during : List (FlightAnswer ν ε × Nat))
      (followers : List (FlightMap.Resolution ν ε))
  | value (result : Option ν)
  | state (result : EntryState)
  | nothing
  /-- The answer of a `follow` step comes with the step around it. -/
  | later

/-- Someone else who asks for a key, with a resolver of this outcome. -/
structure Follower (κ ν ε : Type) where
  key : κ
  own : Outcome ν ε
  result : FlightMap.Resolution ν ε

namespace Follower

variable {κ ν ε : Type} [DecidableEq κ]

/-- Ask for `key` with a resolver of the outcome `own`. -/
def ask (map : FlightMap κ ν ε) (key : κ) (own : Outcome ν ε) :
    Follower κ ν ε × FlightMap κ ν ε :=
  let (result, map, _) := map.resolve key () fun map _ => (own, map, ())
  (⟨key, own, result⟩, map)

/-- Look again at the flight one waits for; if it was abandoned, ask again. -/
def wake (map : FlightMap κ ν ε) (follower : Follower κ ν ε) :
    FlightMap.Resolution ν ε × FlightMap κ ν ε :=
  match follower.result with
  | .waiting number =>
    match map.flight number with
    | .abandoned =>
      let (again, map) := ask map follower.key follower.own
      (again.result, map)
    | _ => (map.follow number, map)
  | result => (result, map)

/-- Wake all, one after the other. -/
def wakeAll (map : FlightMap κ ν ε) :
    List (Follower κ ν ε) → List (FlightMap.Resolution ν ε) × FlightMap κ ν ε
  | [] => ([], map)
  | follower :: rest =>
    let (result, map) := follower.wake map
    let (results, map) := wakeAll map rest
    (result :: results, map)

end Follower

namespace FlightStep

variable {κ ν ε : Type} [DecidableEq κ]

/-- A map, and those who came to follow flights since the enclosing step began. -/
structure Scene (κ ν ε : Type) where
  map : FlightMap κ ν ε := .empty
  followers : List (Follower κ ν ε) := []

mutual

/-- One use, and the scene after it. -/
def run (scene : Scene κ ν ε) : FlightStep κ ν ε → FlightAnswer ν ε × Scene κ ν ε
  | .resolve key during outcome =>
    let (result, map, answers, followers) :=
      scene.map.resolve key ([], []) fun map _ =>
        let (answers, inner) := runAll { map } during
        (outcome, inner.map, answers, inner.followers)
    let (results, map) := Follower.wakeAll map followers
    (.resolution result answers results, { scene with map })
  | .follow key own =>
    let (follower, map) := Follower.ask scene.map key own
    (.later, { map, followers := scene.followers ++ [follower] })
  | .get key => (.value (scene.map.get? key), scene)
  | .state key => (.state (scene.map.state key), scene)
  | .remove key => (.nothing, { scene with map := scene.map.remove key })
  | .clear => (.nothing, { scene with map := scene.map.clear })

/-- Each answer comes with the number of keys that are resolved after its step. -/
def runAll (scene : Scene κ ν ε) :
    List (FlightStep κ ν ε) → List (FlightAnswer ν ε × Nat) × Scene κ ν ε
  | [] => ([], scene)
  | step :: rest =>
    let (answer, scene) := run scene step
    let (answers, last) := runAll scene rest
    ((answer, scene.map.resolvedCount) :: answers, last)

end

end FlightStep

end Lineage
