/-
  Extraction: from a console to ancestor records.

  There are two strategies, each with a script and a way to read what it prints.  An extraction
  passes two checkpoints, after the script has run and after its output has been read, and tells a
  listener of each; it ends with records, with the first failure, or in a crash of the console.
-/
import Lineage.Ancestry.Console
import Lineage.Ancestry.Linearization
import Lineage.Ancestry.ObjectSpace
import Lineage.Ancestry.Script
import Lineage.Outcome

namespace Lineage

/-- How ancestors are found out. -/
inductive Strategy where
  /-- Ask the running program. -/
  | objectSpace
  /-- Look at the declarations in the source. -/
  | declarations
  deriving DecidableEq, Repr

namespace Strategy

/-- The name under which a strategy is reported. -/
def render : Strategy → String
  | objectSpace => "object-space"
  | declarations => "static"

/-- The script that a strategy runs. -/
def script (project : Project) : Strategy → String
  | objectSpace => Script.loadedModules
  | declarations => Script.declarations project

/-- The records in the output of the strategy's script. -/
def read : Strategy → String → Except ExtractionFailure (List AncestorRecord)
  | objectSpace => ObjectSpace.parse
  | declarations => DeclarationTable.linearize

end Strategy

/-- How far an extraction has come. -/
inductive Checkpoint where
  | executed
  | extracted
  deriving DecidableEq, Repr

/-- What somebody does who is told of a checkpoint. -/
abbrev Listener (σ : Type) : Type := Checkpoint → σ → σ

/-- Somebody who does nothing. -/
def Listener.idle : Listener Unit := fun _ _ => ()

/-- An extraction that has ended: how, and the console and the state of the listener it leaves. -/
structure Extraction (σ : Type) where
  result : Outcome (List AncestorRecord) ExtractionFailure
  console : Console
  listener : σ

/-- Extract the ancestors of a project's modules, and tell `listener`, whose state is `heard`, how
    far it gets. -/
def Strategy.extract {σ : Type} (strategy : Strategy) (listener : Listener σ) (heard : σ)
    (console : Console) (project : Project) (interpreter : Interpreter) : Extraction σ :=
  let (reply, console) := console.execute ⟨project, interpreter, strategy.script project⟩
  match reply with
  | .crash => ⟨.crash, console, heard⟩
  | .refused reason => ⟨.failure (.console reason), console, heard⟩
  | .unreadable reason => ⟨.failure (.console reason), console, listener .executed heard⟩
  | .output text =>
    ⟨.ofExcept (strategy.read text), console, listener .extracted (listener .executed heard)⟩

end Lineage
