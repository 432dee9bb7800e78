/-
  How a computation by someone else ends.

  Besides a value and a failure that it reports there is a third way: it CRASHES, and reports
  nothing.  A failure is an answer and is passed on; a crash leaves no answer at all.
-/

namespace Lineage

/-- How something ends that may fail, and may also crash. -/
inductive Outcome (ν ε : Type) where
  | value (result : ν)
  | failure (error : ε)
  | crash
  deriving DecidableEq, Repr

namespace Outcome

variable {ν ε : Type}

/-- The outcome of what does not crash. -/
def ofExcept : Except ε ν → Outcome ν ε
  | .ok result => .value result
  | .error error => .failure error

end Outcome

end Lineage
