/-
  Contract stores: a list of methods in a frame that names its layout.

  The frame is the magic `TTCS`, the version byte of the layout and the number of methods in four
  bytes; the methods follow, and nothing follows them.  The header is checked field by field in
  that order, so of two faults the earlier one is reported.
-/
import Lineage.Device.Sink
import Lineage.Wire.Records

namespace Lineage.Wire

/-- The methods of a contract, and the layout they are kept in. -/
structure ContractStore where
  layout : Layout := default
  methods : List MethodDescriptor := []
  deriving DecidableEq, Repr

namespace ContractStore

instance : Inhabited ContractStore := ⟨{}⟩

/-- Add a method at the end. -/
def push (store : ContractStore) (method : MethodDescriptor) : ContractStore :=
  { store with methods := store.methods ++ [method] }

/-- The number of methods. -/
def size (store : ContractStore) : Nat := store.methods.length

/-- Are there no methods? -/
def isEmpty (store : ContractStore) : Bool := store.methods.isEmpty

/-! ## The bytes of a store -/

/-- The four bytes `TTCS`. -/
def magic : List UInt8 := [0x54, 0x54, 0x43, 0x53]

/-- The greatest number of methods that the header counts. -/
def methodLimit : Nat := 4294967295

/-- The bytes of a store, if all of its methods have some. -/
def toBytes (store : ContractStore) : Except EncodeError (List UInt8) :=
  if store.methods.length ≤ methodLimit then
    let header := Output.raw magic ++ Codec.u8.put store.layout.version ++
      Codec.u32.put (.ofNat store.methods.length)
    (header ++ .concat (store.methods.map (Codec.methodDescriptor store.layout).put)).toExcept
  else .error (.tooManyItems store.methods.length)

/-- The layout and the number of methods that a header announces. -/
def readHeader : Read (Layout × UInt32) := do
  let start ← Read.slice magic.length
  if start ≠ magic then Read.fail .badMagic
  let version ← Codec.u8.get
  match Layout.ofVersion? version with
  | none => Read.fail (.unsupportedVersion version)
  | some layout => return (layout, ← Codec.u32.get)

/-- Read a store: its header, as many methods as that announces, and nothing behind them. -/
def read : Read ContractStore := do
  let (layout, count) ← readHeader
  let methods ← (Codec.methodDescriptor layout).get.times count.toNat
  Read.expectEnd
  return { layout, methods }

/-- The store whose bytes these are. -/
def ofBytes (bytes : List UInt8) : Except DecodeError ContractStore := (read (.ofBytes bytes)).1

/-! ## Stores on a device -/

/-- Why a store could not be written: it has no bytes, or the device refused them. -/
inductive WriteError where
  | encode (error : EncodeError)
  | device (fault : Device.Fault)
  deriving DecidableEq, Repr

/-- Why a store could not be read: the device failed, or its bytes are no store. -/
inductive ReadError where
  | device (fault : Device.Fault)
  | decode (error : DecodeError)
  deriving DecidableEq, Repr

/-- Write a store to a sink.  A store that has no bytes leaves the sink as it is. -/
def writeTo (store : ContractStore) (sink : Device.Sink) : Except WriteError Unit × Device.Sink :=
  match store.toBytes with
  | .error error => (.error (.encode error), sink)
  | .ok bytes =>
    let (result, after) := sink.writeAll bytes
    (result.mapError .device, after)

/-- Read a store from a stream: its bytes, and the fault it ends in if it does not end well. -/
def readFrom (bytes : List UInt8) (fault : Option Device.Fault) :
    Except ReadError ContractStore :=
  match fault with
  | some fault => .error (.device fault)
  | none => (ofBytes bytes).mapError .decode

end ContractStore

end Lineage.Wire
