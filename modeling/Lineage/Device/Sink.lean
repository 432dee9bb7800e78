/-
  A destination for bytes that may stop taking them.

  `room` is how many bytes it takes in all (without a bound if `none`); what does not fit is lost
  and reported.  After the bytes comes a flush, which may fail on its own.
-/
import Lineage.Device.Fault

namespace Lineage.Device

/-- A sink, with the bytes that it has taken so far. -/
structure Sink where
  room : Option Nat := none
  flushFails : Bool := false
  taken : List UInt8 := []

namespace Sink

/-- Write all of `bytes`, then flush: in order, as far as there is room. -/
def writeAll (sink : Sink) (bytes : List UInt8) : Except Fault Unit × Sink :=
  let accepted := match sink.room with
    | none => bytes
    | some room => bytes.take room
  let after := { sink with
    taken := sink.taken ++ accepted
    room := sink.room.map (· - accepted.length) }
  if accepted.length < bytes.length then (.error .writeZero, after)
  else if sink.flushFails then (.error .brokenPipe, after)
  else (.ok (), after)

end Sink

end Lineage.Device
