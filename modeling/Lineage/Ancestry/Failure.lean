/-
  Why no ancestors could be had.
-/

namespace Lineage

/-- The first thing that stops an extraction. -/
inductive ExtractionFailure where
  /-- The console would not run the script, or would not give its output back. -/
  | console (reason : String)
  /-- A line of the output is not of the expected form; lines count from 1. -/
  | malformed (line : Nat) (content : String)
  /-- A class or module is an ancestor of its own ancestor. -/
  | cycle (name : String)
  /-- There is nothing to run a script with. -/
  | missingRuntime
  deriving DecidableEq, Repr

/-- A failure as it is told. -/
def ExtractionFailure.message : ExtractionFailure → String
  | console reason => "Runtime console failed: " ++ reason
  | malformed line content => s!"Malformed console output at line {line}: " ++ content
  | cycle name => "Inheritance cycle through " ++ name
  | missingRuntime => "Ruby SDK is not set"

end Lineage
