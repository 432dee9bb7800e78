/-
  Where a thing is defined: a place in a file, a released library.

  Both types have an all-empty value, their SENTINEL, which stands for "absent" wherever a format
  has no other way to leave the field out.
-/

namespace Lineage

/-- A line of a source file. -/
structure Location where
  path : String
  line : Int32
  deriving DecidableEq, Repr

namespace Location

/-- The place that no definition has: line 0 of a file without a name. -/
def sentinel : Location := ⟨"", 0⟩

instance : Inhabited Location := ⟨sentinel⟩

/-- Would this location be read as an absent one? -/
def isSentinel (location : Location) : Bool := location = sentinel

/-- The text of a place: `path:line`. -/
def render (location : Location) : String := s!"{location.path}:{location.line.toInt}"

end Location

/-- A release of a library. -/
structure LibraryOrigin where
  name : String
  version : String
  deriving DecidableEq, Repr

namespace LibraryOrigin

/-- The library that no contract comes from: nameless, without a version. -/
def sentinel : LibraryOrigin := ⟨"", ""⟩

instance : Inhabited LibraryOrigin := ⟨sentinel⟩

/-- Would this origin be read as an absent one? -/
def isSentinel (origin : LibraryOrigin) : Bool := origin = sentinel

/-- The text of a release: `name-version`. -/
def render (origin : LibraryOrigin) : String := s!"{origin.name}-{origin.version}"

end LibraryOrigin

end Lineage
