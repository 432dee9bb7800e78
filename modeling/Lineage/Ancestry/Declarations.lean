/-
  Declarations of classes and modules.

  A dump states one fact a line:

      class Name [Superclass]
      module Name
      include Name Module ...
      prepend Name Module ...

  Blank lines and lines that begin with `#` state nothing.  The facts are collected into a table
  that starts with the core classes and modules.  A class may be opened again and again, and the
  superclass may be given by any of its lines, but two lines may not give different ones; a class
  is not a module; and modules can be mixed into a known name only.  The first line that breaks a
  rule ends the reading.
-/
import Lineage.Ancestry.Failure
import Lineage.Ancestry.Scope
import Lineage.OrderedMap
import Lineage.Text.Blank

namespace Lineage

/-! ## What is known of a name -/

/-- What is declared under a name: a class, the class that has no superclass, or a module. -/
inductive DeclarationKind where
  /-- The class above all others: it has no superclass and can be given none. -/
  | root
  | ordinary
  | mixin
  deriving DecidableEq, Repr

/-- What the lines read so far say of one name. -/
structure Declaration where
  kind : DeclarationKind
  /-- The superclass as some line wrote it. -/
  superclass : Option String := none
  /-- The modules of each `include`, earliest first. -/
  includes : List (List String) := []
  /-- The modules of each `prepend`, earliest first. -/
  prepends : List (List String) := []
  deriving DecidableEq, Repr

namespace Declaration

/-- The superclass of a class that names none. -/
def rootClass : String := "Object"

/-- The superclass to go on with: the written one, or `Object` for an ordinary class. -/
def superclassOrDefault (d : Declaration) : Option String :=
  match d.superclass, d.kind with
  | some superclass, _ => some superclass
  | none, .ordinary => some rootClass
  | none, _ => none

end Declaration

/-! ## Facts -/

/-- What one line of a dump states. -/
inductive Fact where
  | isClass (name : String) (superclass : Option String)
  | isModule (name : String)
  | includes (name : String) (modules : List String)
  | prepends (name : String) (modules : List String)
  deriving DecidableEq, Repr

/-- The fact with these words; a mixin line names at least one module. -/
def Fact.ofWords? : List String → Option Fact
  | ["class", name] => some (.isClass name none)
  | ["class", name, superclass] => some (.isClass name (some superclass))
  | ["module", name] => some (.isModule name)
  | "include" :: name :: first :: rest => some (.includes name (first :: rest))
  | "prepend" :: name :: first :: rest => some (.prepends name (first :: rest))
  | _ => none

/-! ## Tables -/

/-- What is known of each name, and which names a dump has declared, in this order. -/
structure DeclarationTable where
  /-- What is known of each name, the core included. -/
  known : OrderedMap String Declaration
  /-- The names that the dump declares, in the order of their first declaration. -/
  declared : List String

namespace DeclarationTable

/-- The classes and modules that every program starts with. -/
def core : List (String × Declaration) := [
  ("BasicObject", { kind := .root }),
  ("Kernel", { kind := .mixin }),
  ("Comparable", { kind := .mixin }),
  ("Enumerable", { kind := .mixin }),
  ("Object", { kind := .ordinary, superclass := some "BasicObject", includes := [["Kernel"]] }),
  ("Module", { kind := .ordinary, superclass := some "Object" }),
  ("Class", { kind := .ordinary, superclass := some "Module" }),
  ("Numeric", { kind := .ordinary, superclass := some "Object", includes := [["Comparable"]] }),
  ("Integer", { kind := .ordinary, superclass := some "Numeric" }),
  ("Float", { kind := .ordinary, superclass := some "Numeric" }),
  ("String", { kind := .ordinary, superclass := some "Object", includes := [["Comparable"]] }),
  ("Symbol", { kind := .ordinary, superclass := some "Object", includes := [["Comparable"]] }),
  ("Array", { kind := .ordinary, superclass := some "Object", includes := [["Enumerable"]] }),
  ("Hash", { kind := .ordinary, superclass := some "Object", includes := [["Enumerable"]] }),
  ("Exception", { kind := .ordinary, superclass := some "Object" }),
  ("StandardError", { kind := .ordinary, superclass := some "Exception" })]

/-- Nothing is declared and the core is known. -/
def initial : DeclarationTable := ⟨.ofList core, []⟩

/-- Is there a declaration of the name, or an entry of the core? -/
def isKnown (table : DeclarationTable) (name : String) : Bool := table.known.contains name

/-- The table with `name` among the declared names. -/
def declare (table : DeclarationTable) (name : String) (d : Declaration) : DeclarationTable where
  known := table.known.insert name d
  declared := if name ∈ table.declared then table.declared else table.declared ++ [name]

/-- A class: new, or opened again with no superclass or with the one it has. -/
def addClass (table : DeclarationTable) (name : String) (superclass : Option String) :
    Option DeclarationTable :=
  match table.known.get? name with
  | none => some (table.declare name { kind := .ordinary, superclass })
  | some d =>
    match d.kind, superclass with
    | .mixin, _ => none
    | _, none => some (table.declare name d)
    | .root, some _ => none
    | .ordinary, some written =>
      if d.superclass.all (· = written) then
        some (table.declare name { d with superclass := some written })
      else none

/-- A module: new, or opened again. -/
def addModule (table : DeclarationTable) (name : String) : Option DeclarationTable :=
  match table.known.get? name with
  | none => some (table.declare name { kind := .mixin })
  | some d => if d.kind = .mixin then some (table.declare name d) else none

/-- Change what is known of `name`, which must be known already. -/
def amend (table : DeclarationTable) (name : String) (change : Declaration → Declaration) :
    Option DeclarationTable :=
  (table.known.get? name).map fun d => { table with known := table.known.insert name (change d) }

/-- The table with one more fact, unless a rule forbids it. -/
def add? (table : DeclarationTable) : Fact → Option DeclarationTable
  | .isClass name superclass => table.addClass name superclass
  | .isModule name => table.addModule name
  | .includes name modules =>
    table.amend name fun d => { d with includes := d.includes ++ [modules] }
  | .prepends name modules =>
    table.amend name fun d => { d with prepends := d.prepends ++ [modules] }

/-! ## Dumps -/

/-- Does a trimmed line state nothing? -/
def isSilent : List Char → Bool
  | [] => true
  | c :: _ => c = '#'

/-- The table after one trimmed line. -/
def addLine? (table : DeclarationTable) (line : List Char) : Option DeclarationTable :=
  if isSilent line then some table
  else (Fact.ofWords? ((Text.words line).map String.ofList)).bind table.add?

/-- The table after the lines `lines`, of which the first has the number `number`. -/
def addLines (table : DeclarationTable) (number : Nat) :
    List (List Char) → Except ExtractionFailure DeclarationTable
  | [] => .ok table
  | line :: rest =>
    let content := Text.trim line
    match table.addLine? content with
    | some next => addLines next (number + 1) rest
    | none => .error (.malformed number (String.ofList content))

/-- The table of a dump. -/
def ofDump (dump : String) : Except ExtractionFailure DeclarationTable :=
  addLines initial 1 (Text.lines dump.toList)

/-! ## Ancestors as they are referred to -/

/-- What `reference` means in the scopes `scopes`. -/
def resolve (table : DeclarationTable) (scopes : List String) (reference : String) : String :=
  Scope.resolve table.isKnown scopes reference

/-- The class to go on with after `name`, if there is one.  The reference is looked up around
    `name`; where that finds `name` itself, it is taken as written. -/
def superclassOf (table : DeclarationTable) (name : String) (d : Declaration) : Option String :=
  d.superclassOrDefault.map fun written =>
    let meant := table.resolve (Scope.around name) written
    if meant = name then written else meant

/-- The modules of some calls, the latest call first, each call in the order of its words. -/
def mixedIn (table : DeclarationTable) (name : String) (calls : List (List String)) :
    List String :=
  calls.reverse.flatten.map (table.resolve (Scope.outward name))

/-- The references whose chains come before `name` in its chain. -/
def before (table : DeclarationTable) (name : String) (d : Declaration) : List String :=
  table.mixedIn name d.prepends

/-- The references whose chains come after `name` in its chain. -/
def after (table : DeclarationTable) (name : String) (d : Declaration) : List String :=
  table.mixedIn name d.includes ++ (table.superclassOf name d).toList

end DeclarationTable

end Lineage
