/-
  The two layouts of the record format.

  They differ in one thing: how an optional field that is absent is written.  The LEGACY layout
  writes the record's sentinel, the TAGGED one a presence byte in front.
-/

namespace Lineage.Wire

/-- How an optional field that is absent is written: as its sentinel, or as a byte in front. -/
inductive Layout where
  | legacy
  | tagged
  deriving DecidableEq, Repr

namespace Layout

/-- New stores are tagged. -/
instance : Inhabited Layout := ⟨tagged⟩

/-- The version number by which a store names its layout. -/
def version : Layout → UInt8
  | legacy => 1
  | tagged => 2

/-- The layout that a version byte stands for. -/
def ofVersion? : UInt8 → Option Layout
  | 1 => some legacy
  | 2 => some tagged
  | _ => none

/-- The layout to migrate to. -/
def other : Layout → Layout
  | legacy => tagged
  | tagged => legacy

/-- A store that names its layout is read in that layout. -/
theorem ofVersion?_version (layout : Layout) : ofVersion? layout.version = some layout := by
  cases layout <;> rfl

end Layout

end Lineage.Wire
