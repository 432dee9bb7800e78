/-
  Exporting ancestors: a report for people to read.

  The export shows progress when it starts, at each checkpoint of the extraction, before the report
  is written and when it is written.  If the extraction fails, the reason is written instead of a
  report, and that is no failure of the export.
-/
import Lineage.Ancestry.Extraction
import Lineage.Device.FileSystem
import Lineage.Export.Configuration
import Lineage.Export.Progress

namespace Lineage

open Device (FileSystem Fault)

namespace AncestorsReport

/-- One module: its name, its ancestors with a space after each, and an empty line. -/
def renderRecord (record : AncestorRecord) : String :=
  let chain :=
    if record.ancestors.isEmpty then "Nothing found"
    else String.join (record.ancestors.map (· ++ " "))
  "Module: " ++ record.name ++ "\nAncestors: " ++ chain ++ "\n\n"

/-- The report: its modules one after the other. -/
def render (records : List AncestorRecord) : String := String.join (records.map renderRecord)

end AncestorsReport

/-- What an export that could write its file has written. -/
inductive AncestorsExport.Result where
  | written (records : Nat)
  | extractionFailed (message : String)
  deriving DecidableEq, Repr

/-- An export that has ended: what came of it (nothing if the console crashed), and what it leaves
    behind. -/
structure AncestorsExport where
  result : Option (Except Fault AncestorsExport.Result)
  indicator : Indicator
  console : Console
  fileSystem : FileSystem

namespace AncestorsExport

/-- Extract, if there is an interpreter to do it with; each checkpoint is a step of progress. -/
def extract (strategy : Strategy) (fractions : UInt32) (indicator : Indicator) (console : Console)
    (project : Project) : Option Interpreter → Extraction Indicator
  | none => ⟨.failure .missingRuntime, console, indicator⟩
  | some interpreter =>
    strategy.extract (fun _ shown => shown.advance fractions) indicator console project interpreter

/-- Export the ancestors of a project's modules to a file, and show progress. -/
def run (fs : FileSystem) (strategy : Strategy) (console : Console) (project : Project)
    (interpreter : Option Interpreter) (config : Configuration) (indicator : Indicator)
    (target : String) : AncestorsExport :=
  let fractions := config.progressFractions
  let extraction :=
    extract strategy fractions (indicator.advance fractions) console project interpreter
  match extraction.result with
  | .crash => ⟨none, extraction.listener, extraction.console, fs⟩
  | .failure failure =>
    let (written, fs) := fs.write target (Utf8.encode (failure.message ++ "\n"))
    ⟨some (written.map fun _ => .extractionFailed failure.message), extraction.listener,
      extraction.console, fs⟩
  | .value records =>
    let indicator := extraction.listener.advance fractions
    match fs.write target (Utf8.encode (AncestorsReport.render records)) with
    | (.error fault, fs) => ⟨some (.error fault), indicator, extraction.console, fs⟩
    | (.ok (), fs) =>
      ⟨some (.ok (.written records.length)), indicator.advance fractions, extraction.console, fs⟩

end AncestorsExport

end Lineage
