/-
  Classes, their methods and their ancestor chains, as plain descriptions.
-/
import Lineage.Record.Origin

namespace Lineage

/-- Who may call a method. -/
inductive Visibility where
  | isPublic
  | isPrivate
  | isProtected
  deriving DecidableEq, Repr

namespace Visibility

instance : Inhabited Visibility := ⟨isPublic⟩

/-- The visibilities in the order of their ordinals. -/
def all : List Visibility := [isPublic, isPrivate, isProtected]

/-- The number that stands for a visibility on the wire. -/
def ordinal : Visibility → UInt8
  | isPublic => 0
  | isPrivate => 1
  | isProtected => 2

/-- The visibility that a number stands for. -/
def ofOrdinal? (ordinal : UInt8) : Option Visibility := all[ordinal.toNat]?

/-- A visibility as it is written. -/
def render : Visibility → String
  | isPublic => "PUBLIC"
  | isPrivate => "PRIVATE"
  | isProtected => "PROTECTED"

instance : Ord Visibility := ⟨compareOn ordinal⟩

theorem ofOrdinal?_ordinal (v : Visibility) : ofOrdinal? v.ordinal = some v := by
  cases v <;> rfl

end Visibility

/-- A class or module, by its fully qualified name, and the library it comes from; a class
    without an origin belongs to the project itself. -/
structure ClassDescriptor where
  name : String
  origin : Option LibraryOrigin
  deriving DecidableEq, Repr

/-- A class of the project itself. -/
def ClassDescriptor.ofProject (name : String) : ClassDescriptor := ⟨name, none⟩

/-- A method of a class. -/
structure MethodDescriptor where
  owner : ClassDescriptor
  name : String
  visibility : Visibility
  location : Option Location
  deriving DecidableEq, Repr

/-- The name of the class that owns a method. -/
def MethodDescriptor.ownerName (method : MethodDescriptor) : String := method.owner.name

/-- A module and its ancestor chain, nearest ancestor first. -/
structure AncestorRecord where
  name : String
  ancestors : List String
  deriving DecidableEq, Repr

/-- Were no ancestors found? -/
def AncestorRecord.isEmpty (record : AncestorRecord) : Bool := record.ancestors.isEmpty

/-- The modules of a project, each with its own caches. -/
structure ModuleId where
  name : String
  deriving DecidableEq, Repr

instance : Ord ModuleId := ⟨compareOn ModuleId.name⟩

/-- The scope a symbol is asked for in; answers are stamped with it. -/
structure RootScope where
  id : UInt32
  deriving DecidableEq, Repr

namespace RootScope

instance : Inhabited RootScope := ⟨⟨0⟩⟩
instance : Ord RootScope := ⟨compareOn RootScope.id⟩

end RootScope

end Lineage
