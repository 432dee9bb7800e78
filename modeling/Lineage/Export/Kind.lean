/-
  What can be exported, and how it is offered.
-/
import Lineage.Ancestry.Extraction

namespace Lineage

/-- What is exported: the contract store, or the ancestors by one of the strategies. -/
inductive ExportKind where
  | contracts
  | ancestors (strategy : Strategy)
  deriving DecidableEq, Repr

namespace ExportKind

/-- The exports in the order in which they are offered. -/
def all : List ExportKind :=
  [contracts, ancestors .objectSpace, ancestors .declarations]

/-- What an export is called. -/
def title : ExportKind → String
  | contracts => "Type Contracts"
  | ancestors .objectSpace => "ancestors by ObjectSpace"
  | ancestors .declarations => "ancestors by RubyMine"

/-- What is said of an export beside its title; of the ancestors, nothing. -/
def description : ExportKind → String
  | contracts =>
    "The selected file will be populated with the contract store, which might be imported later"
  | ancestors _ => ""

/-- The file name to propose for a project. -/
def fileName (projectName : String) : ExportKind → String
  | contracts => projectName ++ "-type-tracker-contracts"
  | ancestors .objectSpace => projectName ++ "-ancestors-by-objectspace"
  | ancestors .declarations => projectName ++ "ancestors-by-rubymine"

/-- The extensions that a file of this export may have. -/
def extensions : ExportKind → List String
  | contracts => [".mv.db"]
  | ancestors _ => ["txt"]

/-- The number of steps of an export that shows progress. -/
def progressFractions : ExportKind → Option Nat
  | contracts => none
  | ancestors _ => some 5

end ExportKind

end Lineage
