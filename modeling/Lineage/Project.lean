/-
  What is worked on, and what runs it.
-/

namespace Lineage

/-- A project: its root directory and the other directories that its source is loaded from. -/
structure Project where
  name : String
  root : String
  loadPaths : List String := []
  deriving DecidableEq, Repr

/-- All directories with source, the root first. -/
def Project.sourceRoots (project : Project) : List String := project.root :: project.loadPaths

/-- What a project's programs are run with. -/
structure Interpreter where
  path : String
  version : String
  deriving DecidableEq, Repr

end Lineage
