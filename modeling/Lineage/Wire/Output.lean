/-
  What writing produces: some bytes, and possibly the reason why it stopped there.

  Outputs form a monoid.  Whatever is appended after a failure is lost, so a sequence of writes
  yields the bytes up to the first one that fails, and that one's reason.
-/
import Lineage.Wire.Error

namespace Lineage.Wire

/-- The bytes written so far, and why writing stopped there if it did. -/
structure Output where
  bytes : List UInt8 := []
  failure : Option EncodeError := none
  deriving DecidableEq, Repr

namespace Output

/-- Nothing put yet. -/
def empty : Output := {}

/-- Bytes as they are. -/
def raw (bytes : List UInt8) : Output := { bytes }

/-- Nothing but a failure. -/
def fail (error : EncodeError) : Output := { failure := some error }

/-- `b` after `a`, if `a` did not stop. -/
def append (a b : Output) : Output :=
  match a.failure with
  | none => ⟨a.bytes ++ b.bytes, b.failure⟩
  | some _ => a

instance : Append Output := ⟨append⟩

/-- Several outputs, one after the other. -/
def concat (parts : List Output) : Output := parts.foldr append empty

/-- The bytes of an output that is complete. -/
def toExcept (output : Output) : Except EncodeError (List UInt8) :=
  match output.failure with
  | none => .ok output.bytes
  | some error => .error error

theorem append_def (a b : Output) : a ++ b = append a b := rfl

@[simp] theorem empty_append (a : Output) : empty ++ a = a := rfl

@[simp] theorem append_empty (a : Output) : a ++ empty = a := by
  obtain ⟨bytes, failure⟩ := a
  cases failure <;> simp [append_def, append, empty]

/-- Outputs may be grouped as one likes: the first failure wins in any case. -/
theorem append_assoc (a b c : Output) : a ++ b ++ c = a ++ (b ++ c) := by
  obtain ⟨ab, af⟩ := a
  obtain ⟨bb, bf⟩ := b
  cases af <;> cases bf <;> simp [append_def, append]

@[simp] theorem concat_nil : concat [] = empty := rfl

@[simp] theorem concat_cons (a : Output) (rest : List Output) :
    concat (a :: rest) = a ++ concat rest := rfl

end Output

end Lineage.Wire
