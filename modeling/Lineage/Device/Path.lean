/-
  Paths, as text and as routes.

  Joining is a matter of text: nothing is normalised.  To go along a path its text is read as a
  route: where it starts, the steps it takes, and whether it ends in a slash, which says that a
  directory is meant.
-/
import Lineage.Text.Blank

namespace Lineage.Device

/-! ## Text -/

/-- Does the path start at the root? -/
def isAbsolute (path : String) : Bool := path.toList.head? = some '/'

/-- `path` as seen from `base`.  An absolute path is where it is; to another one the base is put
    in front, with a slash between them unless the base is empty or has one. -/
def join (base path : String) : String :=
  if isAbsolute path then path
  else if base.toList.getLast?.all (· = '/') then base ++ path
  else base ++ "/" ++ path

/-! ## Routes -/

/-- One step along a path. -/
inductive Step where
  /-- `.`: stay in this directory. -/
  | stay
  /-- `..`: go to the directory around it. -/
  | up
  /-- Go to the entry of this name. -/
  | into (name : String)
  deriving DecidableEq, Repr

/-- A path, taken apart. -/
structure Route where
  absolute : Bool
  steps : List Step
  /-- Does the path end in a slash? -/
  slash : Bool
  deriving DecidableEq, Repr

/-- The step that a name between two slashes stands for. -/
def Step.ofName (name : List Char) : Step :=
  if name = ['.'] then stay else if name = ['.', '.'] then up else into (String.ofList name)

/-- A name that stands for the step. -/
def Step.render : Step → String
  | stay => "."
  | up => ".."
  | into name => name

namespace Route

/-- The route of a path.  Slashes that follow one another count as one. -/
def ofText (path : String) : Route where
  absolute := isAbsolute path
  steps := ((Text.split (· = '/') path.toList).filter (· ≠ [])).map Step.ofName
  slash := path.toList.getLast? = some '/'

/-- A path that takes this route. -/
def render (route : Route) : String :=
  (if route.absolute then "/" else "") ++ "/".intercalate (route.steps.map Step.render)

/-- The steps that count: a `.` counts only at the start of a relative path. -/
def significant (route : Route) : List Step :=
  match route.absolute, route.steps with
  | false, .stay :: rest => .stay :: rest.filter (· ≠ .stay)
  | _, steps => steps.filter (· ≠ .stay)

/-- The route to what is around the end of this one; the root and the empty route have nothing
    around them. -/
def parent? (route : Route) : Option Route :=
  if route.significant = [] then none
  else some { route with steps := route.significant.dropLast, slash := false }

/-- Leaving out the steps that do not count adds none. -/
theorem length_significant_le (route : Route) : route.significant.length ≤ route.steps.length := by
  unfold significant
  split
  · rename_i rest hSteps
    rw [hSteps, List.length_cons, List.length_cons]
    exact Nat.succ_le_succ (List.length_filter_le _ _)
  · exact List.length_filter_le _ _

/-- Going to what is around a route takes fewer steps, so that making directories ends. -/
theorem length_parent? {route parent : Route} (hParent : route.parent? = some parent) :
    parent.steps.length < route.steps.length := by
  unfold parent? at hParent
  split at hParent
  · cases hParent
  · rename_i hSome
    cases hParent
    have hPos := List.length_pos_iff.2 hSome
    have hLe := route.length_significant_le
    simp only [List.length_dropLast]
    omega

end Route

example : join "/r" "a/b" = "/r/a/b" ∧ join "r/" "" = "r/" ∧ join "r" "" = "r/" ∧
    join "" "a" = "a" ∧ join "r" "/a" = "/a" := by decide

end Lineage.Device
