/-
  Progress, as a fraction of the whole, and the indicator that shows it.

  A fraction is kept as the bits of its number, so that whatever was set reads back unchanged.
  Progress goes up by equal steps and stops at one.  An indicator belongs to whoever runs an export;
  it keeps what it was set to, one fraction after the other.
-/

namespace Lineage

/-- A fraction of the whole, by the bits of its number. -/
structure Progress where
  bits : UInt64
  deriving DecidableEq, Repr

namespace Progress

/-- No progress yet. -/
def start : Progress := ⟨0⟩

/-- The fraction that is this number. -/
def ofFloat (fraction : Float) : Progress := ⟨fraction.toBits⟩

/-- The number that a fraction is. -/
def toFloat (progress : Progress) : Float := .ofBits progress.bits

/-- The step of progress in `fractions` parts; there is at least one. -/
def step (fractions : UInt32) : Float := 1.0 / (max fractions 1).toFloat

/-- One step further, but not beyond one; from a fraction that is no number, to one. -/
def advance (progress : Progress) (fractions : UInt32) : Progress :=
  let next := progress.toFloat + step fractions
  ofFloat (if next < 1.0 then next else 1.0)

end Progress

/-- An indicator, with all that it has been set to. -/
structure Indicator where
  /-- The fraction that it shows. -/
  fraction : Progress := .start
  /-- The fractions that it was set to, earliest first. -/
  shown : List Progress := []
  deriving DecidableEq, Repr

namespace Indicator

/-- Show this fraction. -/
def set (indicator : Indicator) (fraction : Progress) : Indicator where
  fraction := fraction
  shown := indicator.shown ++ [fraction]

/-- Move on by one step of `fractions`. -/
def advance (indicator : Indicator) (fractions : UInt32) : Indicator :=
  indicator.set (indicator.fraction.advance fractions)

end Indicator

end Lineage
