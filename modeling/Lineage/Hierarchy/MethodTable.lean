/-
  Methods by the class that owns them, and symbols.

  Under each class the methods stand in the order in which they were inserted, duplicates
  included.
-/
import Lineage.OrderedMap
import Lineage.Record.Method
import Lineage.Wire.Store

namespace Lineage

/-- Methods by the class that owns them. -/
structure MethodTable where
  byOwner : OrderedMap String (List MethodDescriptor) := .empty

namespace MethodTable

/-- A table without methods. -/
def empty : MethodTable := {}

instance : Inhabited MethodTable := ⟨empty⟩

/-- The methods of a class. -/
def membersOf (table : MethodTable) (className : String) : List MethodDescriptor :=
  (table.byOwner.get? className).getD []

/-- Add a method after those its class has. -/
def insert (table : MethodTable) (method : MethodDescriptor) : MethodTable where
  byOwner := table.byOwner.insert method.ownerName (table.membersOf method.ownerName ++ [method])

/-- The table of some methods, taken in order. -/
def ofMethods (methods : List MethodDescriptor) : MethodTable := methods.foldl insert empty

/-- The methods of a contract. -/
def ofStore (store : Wire.ContractStore) : MethodTable := ofMethods store.methods

/-- The classes that own a method. -/
def classes (table : MethodTable) : List String := table.byOwner.keys

/-- The number of methods. -/
def size (table : MethodTable) : Nat := table.byOwner.values.flatten.length

/-- Has no class a method? -/
def isEmpty (table : MethodTable) : Bool := table.byOwner.isEmpty

end MethodTable

/-- A method as it is seen from some class below its owner, in the scope it was asked for in. -/
structure Symbol where
  name : String
  owner : String
  visibility : Visibility
  location : Option Location
  root : RootScope
  deriving DecidableEq, Repr

/-- A method as it is shown to a user who looks from `root`. -/
def Symbol.ofMethod (root : RootScope) (method : MethodDescriptor) : Symbol :=
  ⟨method.name, method.ownerName, method.visibility, method.location, root⟩

end Lineage
