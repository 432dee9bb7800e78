/-
  Call signatures, as observed while a program runs.

  A signature says which method was called on what with which arguments, and what came back.  What
  came back (`returnType`) and whether the callee belongs to the project (`isLocal`) are payload:
  two observations are of the SAME CALL when they agree on everything else.
-/
import Lineage.Record.Method

namespace Lineage

/-- The ways a method can take a parameter. -/
inductive ParameterKind where
  | req
  | opt
  | post
  | rest
  | keyReq
  | key
  | keyRest
  | block
  deriving DecidableEq, Repr

namespace ParameterKind

/-- The kinds in the order of their ordinals. -/
def all : List ParameterKind := [req, opt, post, rest, keyReq, key, keyRest, block]

/-- The number that stands for a kind on the wire. -/
def ordinal : ParameterKind → UInt8
  | req => 0
  | opt => 1
  | post => 2
  | rest => 3
  | keyReq => 4
  | key => 5
  | keyRest => 6
  | block => 7

/-- The kind that a number stands for. -/
def ofOrdinal? (ordinal : UInt8) : Option ParameterKind := all[ordinal.toNat]?

/-- A kind as it is written. -/
def render : ParameterKind → String
  | req => "req"
  | opt => "opt"
  | post => "post"
  | rest => "rest"
  | keyReq => "keyreq"
  | key => "key"
  | keyRest => "keyrest"
  | block => "block"

/-- The kind written `text`. -/
def parse? (text : String) : Option ParameterKind := all.find? fun kind => kind.render = text

/-- What to say of a text that names no kind. -/
def unknownMessage (text : String) : String := s!"unknown parameter kind: {text}"

/-- Is the argument passed by name? -/
def isNamed : ParameterKind → Bool
  | keyReq | key | keyRest => true
  | _ => false

instance : Ord ParameterKind := ⟨compareOn ordinal⟩

theorem ofOrdinal?_ordinal (k : ParameterKind) : ofOrdinal? k.ordinal = some k := by
  cases k <;> rfl

/-- No two kinds are written alike, so each is read back from its text. -/
theorem parse?_render (k : ParameterKind) : parse? k.render = some k := by
  cases k <;> decide

end ParameterKind

/-- A parameter of a method. -/
structure ParameterInfo where
  name : String
  kind : ParameterKind
  deriving DecidableEq, Repr

/-- Is the parameter passed by name? -/
def ParameterInfo.isNamed (parameter : ParameterInfo) : Bool := parameter.kind.isNamed

/-- One observed call.  `parameters` are those of the callee, `argumentTypes` the types the call
    passed. -/
structure CallSignature where
  methodName : String
  receiverName : String
  visibility : Visibility
  parameters : List ParameterInfo := []
  argumentTypes : List String := []
  origin : LibraryOrigin
  returnType : String := ""
  isLocal : Bool := false
  deriving DecidableEq, Repr

namespace CallSignature

/-- A signature about whose arguments and result nothing is known yet. -/
def blank (methodName receiverName : String) (visibility : Visibility) (origin : LibraryOrigin) :
    CallSignature := { methodName, receiverName, visibility, origin }

/-- Do two signatures observe the same call?  The result and the locality do not count. -/
def sameCall (a b : CallSignature) : Bool :=
  a.methodName = b.methodName && a.receiverName = b.receiverName &&
    a.visibility = b.visibility && a.parameters = b.parameters &&
    a.argumentTypes = b.argumentTypes && a.origin = b.origin

/-- Add `signature` to a collection that holds each call once; `false` and no change if its call
    is there already. -/
def addNew (known : List CallSignature) (signature : CallSignature) :
    Bool × List CallSignature :=
  if known.any (sameCall signature) then (false, known) else (true, known ++ [signature])

end CallSignature

end Lineage
