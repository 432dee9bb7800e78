/-
  The registry of observed calls.

  Observations are kept by call shape (which method, on what, with which argument types) and under
  a shape by the library release they were made with.  A later observation of the same shape and
  release takes the place of the earlier one; shapes and releases keep the order in which they were
  first seen.
-/
import Lineage.Contract.Version
import Lineage.OrderedMap
import Lineage.Record.Signature

namespace Lineage

/-- What the registry files a signature under: the method, the receiver and the argument types. -/
structure CallShape where
  methodName : String
  receiverName : String
  argumentTypes : List String
  deriving DecidableEq, Repr

/-- The shape that a signature is filed under. -/
def CallSignature.shape (signature : CallSignature) : CallShape :=
  ⟨signature.methodName, signature.receiverName, signature.argumentTypes⟩

/-- What was observed of one call shape, by release. -/
abbrev Observations : Type := OrderedMap LibraryOrigin CallSignature

/-- What was observed of each call shape, in the order in which the shapes were first seen. -/
structure SignatureRegistry where
  shapes : OrderedMap CallShape Observations := .empty

namespace SignatureRegistry

/-- A registry that was told nothing. -/
def empty : SignatureRegistry := {}

instance : Inhabited SignatureRegistry := ⟨empty⟩

/-- The observations of a shape; of a shape never seen there are none. -/
def observations (registry : SignatureRegistry) (shape : CallShape) : Observations :=
  (registry.shapes.get? shape).getD .empty

/-- Add an observation, in the place of an earlier one of the same shape and release. -/
def record (registry : SignatureRegistry) (signature : CallSignature) : SignatureRegistry where
  shapes := registry.shapes.insert signature.shape
    ((registry.observations signature.shape).insert signature.origin signature)

/-- What a call of this method on this receiver with arguments of these types returns under the
    release nearest to the installed one; with none installed, under the lowest one. -/
def returnType? (registry : SignatureRegistry) (methodName receiverName : String)
    (argumentTypes : List String) (installed : Option String) : Option String :=
  Version.nearest (installed.getD "")
    ((registry.observations ⟨methodName, receiverName, argumentTypes⟩).values.map fun s =>
      (s.origin.version, s.returnType))

/-- The parameters of `methodName` on `receiverName`, by the first observation of the first shape
    of such a call. -/
def parameters (registry : SignatureRegistry) (methodName receiverName : String) :
    List ParameterInfo :=
  match registry.shapes.entries.find? fun (shape, _) =>
      shape.methodName = methodName && shape.receiverName = receiverName with
  | some (_, observations) => (observations.values.head?.map (·.parameters)).getD []
  | none => []

/-- The first observation of each shape of a call on `receiverName`. -/
def onReceiver (registry : SignatureRegistry) (receiverName : String) : List CallSignature :=
  (registry.shapes.entries.filter fun (shape, _) => shape.receiverName = receiverName).filterMap
    fun (_, observations) => observations.values.head?

/-- The number of observations that are kept. -/
def size (registry : SignatureRegistry) : Nat :=
  (registry.shapes.values.flatMap OrderedMap.values).length

/-- Is no shape kept at all? -/
def isEmpty (registry : SignatureRegistry) : Bool := registry.shapes.isEmpty

end SignatureRegistry

end Lineage
