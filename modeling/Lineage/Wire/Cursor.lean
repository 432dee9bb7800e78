/-
  Reading: a position in a sequence of bytes, and the steps that move it.

  A step answers with a value or an error and always with a new cursor: an error is no reason to
  forget how far reading came, and reading may go on from there.  The cursor keeps the bytes that
  are still to come, so a step looks at no byte twice; `position + rest.length` is the length of the
  whole sequence after every step.
-/
import Lineage.Wire.Error

namespace Lineage.Wire

/-- A place in a sequence of bytes: how many are behind it, and those that are still to come. -/
structure Cursor where
  position : Nat
  rest : List UInt8
  deriving DecidableEq, Repr

namespace Cursor

/-- The start of some bytes. -/
def ofBytes (bytes : List UInt8) : Cursor := ⟨0, bytes⟩

/-- The number of bytes that are left. -/
def remaining (cursor : Cursor) : Nat := cursor.rest.length

/-- Are no bytes left? -/
def atEnd (cursor : Cursor) : Bool := cursor.rest.isEmpty

end Cursor

/-- A step of reading that yields a value or an error. -/
def Read (α : Type) : Type := Cursor → Except DecodeError α × Cursor

namespace Read

variable {α β : Type}

/-- Read nothing, and give this value. -/
def pure (value : α) : Read α := fun cursor => (.ok value, cursor)

/-- Read nothing, and fail. -/
def fail (error : DecodeError) : Read α := fun cursor => (.error error, cursor)

/-- `next` goes on where `step` succeeded; where it failed, that is the end. -/
def bind (step : Read α) (next : α → Read β) : Read β := fun cursor =>
  match step cursor with
  | (.ok value, after) => next value after
  | (.error error, after) => (.error error, after)

instance : Monad Read where
  pure := pure
  bind := bind

/-- The next `count` bytes.  If there are fewer, the cursor stays where it is. -/
def slice (count : Nat) : Read (List UInt8) := fun cursor =>
  let (taken, rest) := cursor.rest.splitAt count
  if taken.length = count then (.ok taken, ⟨cursor.position + count, rest⟩)
  else (.error (.unexpectedEnd count cursor.remaining), cursor)

/-- Nothing may be left. -/
def expectEnd : Read Unit := fun cursor =>
  match cursor.remaining with
  | 0 => (.ok (), cursor)
  | count + 1 => (.error (.trailingBytes (count + 1)), cursor)

/-- `step` done `count` times, the values in order.  The values read so far are kept in `done`,
    latest first, so that a long list needs no deep recursion. -/
def timesInto (step : Read α) : (count : Nat) → (done : List α) → Read (List α)
  | 0, done => pure done.reverse
  | count + 1, done => fun cursor =>
    match step cursor with
    | (.ok value, after) => timesInto step count (value :: done) after
    | (.error error, after) => (.error error, after)

/-- Read so many values, one after the other. -/
def times (step : Read α) (count : Nat) : Read (List α) := timesInto step count []

/-- The values read before go in front of those still to come, so `timesInto` may start afresh. -/
theorem timesInto_eq (step : Read α) (count : Nat) (done : List α) :
    timesInto step count done =
      bind (timesInto step count []) fun values => pure (done.reverse ++ values) := by
  induction count generalizing done with
  | zero => funext cursor; simp [timesInto, bind, pure]
  | succ n ih =>
    funext cursor
    simp only [timesInto, bind]
    cases hstep : step cursor with
    | mk result after =>
      cases result with
      | error e => rfl
      | ok value =>
        dsimp only
        rw [ih (value :: done), ih [value]]
        simp only [bind, pure]
        cases timesInto step n [] after with
        | mk r c => cases r <;> simp

@[simp] theorem times_zero (step : Read α) : times step 0 = pure [] := rfl

/-- Reading one more value means reading one and then the others. -/
theorem times_succ (step : Read α) (count : Nat) :
    times step (count + 1) =
      bind step fun value => bind (times step count) fun values => pure (value :: values) := by
  funext cursor
  simp only [times, timesInto, bind]
  cases step cursor with
  | mk result after =>
    cases result with
    | error e => rfl
    | ok value =>
      dsimp only
      rw [timesInto_eq]
      rfl

end Read

end Lineage.Wire
