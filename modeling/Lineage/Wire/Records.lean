/-
  The formats of the record types: which fields, in which order.

  Only `ClassDescriptor` and `MethodDescriptor` have optional fields of their own, and so depend
  on the layout.
-/
import Lineage.Record.Signature
import Lineage.Wire.Codec

namespace Lineage.Wire.Codec

/-- A place: its path, then its line, which may be negative. -/
def location : Codec Location :=
  (text.pair i32).iso (fun (path, line) => ⟨path, line⟩) fun l => (l.path, l.line)

/-- A release: the name of the library, then its version. -/
def libraryOrigin : Codec LibraryOrigin :=
  (text.pair text).iso (fun (name, version) => ⟨name, version⟩) fun o => (o.name, o.version)

instance : HasSentinel Location := ⟨.location, .sentinel⟩
instance : HasSentinel LibraryOrigin := ⟨.libraryOrigin, .sentinel⟩

/-- A visibility: the byte of its ordinal. -/
def visibility : Codec Visibility :=
  ordinal Visibility.ordinal Visibility.ofOrdinal? .invalidVisibility

/-- A kind of parameter: the byte of its ordinal. -/
def parameterKind : Codec ParameterKind :=
  ordinal ParameterKind.ordinal ParameterKind.ofOrdinal? .invalidParameterKind

/-- A class: its name, then its library as an optional field. -/
def classDescriptor (layout : Layout) : Codec ClassDescriptor :=
  (text.pair (libraryOrigin.optional layout)).iso
    (fun (name, origin) => ⟨name, origin⟩) fun c => (c.name, c.origin)

/-- A method: owner, name, visibility, then its place as an optional field. -/
def methodDescriptor (layout : Layout) : Codec MethodDescriptor :=
  ((classDescriptor layout).pair <| text.pair <| visibility.pair <| location.optional layout).iso
    (fun (owner, name, visibility, location) => ⟨owner, name, visibility, location⟩)
    fun m => (m.owner, m.name, m.visibility, m.location)

/-- A parameter: its name, then its kind. -/
def parameterInfo : Codec ParameterInfo :=
  (text.pair parameterKind).iso (fun (name, kind) => ⟨name, kind⟩) fun p => (p.name, p.kind)

/-- A signature: all that makes up its call, the origin last, then the result and the locality. -/
def callSignature : Codec CallSignature :=
  (text.pair <| text.pair <| visibility.pair <| (list parameterInfo).pair <| (list text).pair <|
    libraryOrigin.pair <| text.pair bool).iso
    (fun (methodName, receiverName, visibility, parameters, argumentTypes, origin, returnType,
        isLocal) =>
      { methodName, receiverName, visibility, parameters, argumentTypes, origin, returnType,
        isLocal })
    fun s => (s.methodName, s.receiverName, s.visibility, s.parameters, s.argumentTypes, s.origin,
      s.returnType, s.isLocal)

/-- A chain: the name of the module, then its ancestors. -/
def ancestorRecord : Codec AncestorRecord :=
  (text.pair (list text)).iso (fun (name, ancestors) => ⟨name, ancestors⟩)
    fun r => (r.name, r.ancestors)

end Lineage.Wire.Codec
