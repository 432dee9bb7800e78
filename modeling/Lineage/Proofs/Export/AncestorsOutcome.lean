/-
  What an export of ancestors comes to, wherever it stops.

  `Extracts` says in five lines how far an extraction gets: there may be no interpreter, the console
  may refuse the script or lose what it printed, what it printed may not be read, and only then are
  there records.  Each line has the number of steps of progress that have been shown by then.

  Whatever comes of the extraction is written to the target, the report of the records or the
  message of the failure, and so the result, the content of the file and the progress always tell
  the same.  The console is asked once, and not at all without an interpreter.  The export itself
  fails in one case only, when the target cannot be written (`Delivers`): if there is no place for
  it, no file has changed; if the device stops part-way, the target holds the part that was taken.
-/
import Lineage.Export.Ancestors
import Lineage.Proofs.Device.Files
import Lineage.Proofs.Export.Indicator

namespace Lineage.AncestorsExport

open Device (FileSystem Fault Place)
open Device.FileSystem

variable {strategy : Strategy} {console : Console} {project : Project}
  {interpreter : Option Interpreter} {fs : FileSystem} {config : Configuration}
  {indicator : Indicator} {target : String}

/-! ## How far an extraction gets -/

/-- What an extraction comes to if the console gives this reply, and how many steps of progress have
    been shown by then. -/
inductive Extracts (strategy : Strategy) (reply : Reply) :
    Option Interpreter → Except ExtractionFailure (List AncestorRecord) → (steps : Nat) → Prop
  | noInterpreter : Extracts strategy reply none (.error .missingRuntime) 1
  | refused {interpreter : Interpreter} {reason : String} (hReply : reply = .refused reason) :
      Extracts strategy reply (some interpreter) (.error (.console reason)) 1
  | unreadable {interpreter : Interpreter} {reason : String} (hReply : reply = .unreadable reason) :
      Extracts strategy reply (some interpreter) (.error (.console reason)) 2
  | misread {interpreter : Interpreter} {text : String} {failure : ExtractionFailure}
      (hReply : reply = .output text) (hRead : strategy.read text = .error failure) :
      Extracts strategy reply (some interpreter) (.error failure) 3
  | read {interpreter : Interpreter} {text : String} {records : List AncestorRecord}
      (hReply : reply = .output text) (hRead : strategy.read text = .ok records) :
      Extracts strategy reply (some interpreter) (.ok records) 3

/-- Every extraction comes to something, unless the console crashes. -/
theorem exists_extracts (strategy : Strategy) {reply : Reply}
    (hReply : interpreter = none ∨ reply ≠ .crash) :
    ∃ extracted steps, Extracts strategy reply interpreter extracted steps := by
  cases interpreter with
  | none => exact ⟨_, _, .noInterpreter⟩
  | some interpreter =>
    cases reply with
    | output text =>
      cases hRead : strategy.read text with
      | error failure => exact ⟨_, _, .misread rfl hRead⟩
      | ok records => exact ⟨_, _, .read rfl hRead⟩
    | refused reason => exact ⟨_, _, .refused rfl⟩
    | unreadable reason => exact ⟨_, _, .unreadable rfl⟩
    | crash =>
      rcases hReply with hNone | hCrash
      · cases hNone
      · exact absurd rfl hCrash

/-- An extraction comes to what its console's reply says, and its checkpoints are steps of
    progress after the first one. -/
theorem extract_of_extracts {extracted : Except ExtractionFailure (List AncestorRecord)}
    {steps : Nat}
    (hExtracts : Extracts strategy (console.reply console.log.length) interpreter extracted steps)
    (project : Project) (fractions : UInt32) (indicator : Indicator) :
    let extraction :=
      extract strategy fractions (indicator.advance fractions) console project interpreter
    extraction.result = .ofExcept extracted ∧
      Advances fractions indicator steps extraction.listener := by
  have hOne := (Advances.zero fractions indicator).advance
  -- How far the extraction came says how often the indicator was advanced.
  cases hExtracts with
  | noInterpreter => exact ⟨rfl, hOne⟩
  | refused hReply =>
    rw [extract, Strategy.extract, Console.execute]
    dsimp only
    rw [hReply]
    exact ⟨rfl, hOne⟩
  | unreadable hReply =>
    rw [extract, Strategy.extract, Console.execute]
    dsimp only
    rw [hReply]
    exact ⟨rfl, hOne.advance⟩
  | misread hReply hRead | read hReply hRead =>
    rw [extract, Strategy.extract, Console.execute]
    dsimp only
    rw [hReply]
    dsimp only
    rw [hRead]
    exact ⟨rfl, hOne.advance.advance⟩

/-- Whatever comes of an extraction, its console has been asked for the strategy's script. -/
theorem log_extract (strategy : Strategy) (fractions : UInt32) (indicator : Indicator)
    (console : Console) (project : Project) (interpreter : Option Interpreter) :
    (extract strategy fractions indicator console project interpreter).console.log =
      console.log ++ interpreter.toList.map fun i => ⟨project, i, strategy.script project⟩ := by
  cases interpreter with
  | none => exact (List.append_nil _).symm
  | some interpreter =>
    simp only [extract, Strategy.extract, Console.execute]
    split <;> rfl

/-! ## What is written -/

/-- What is to be written of an extraction. -/
def contentOf : Except ExtractionFailure (List AncestorRecord) → String
  | .ok records => AncestorsReport.render records
  | .error failure => failure.message ++ "\n"

/-- What was written is this content, as far as it could be written, and `answer` says so if it
    could be written at all: it stands in the target; or the device has stopped after a part of it,
    or there is no place for it, and the fault says so.  No other file has changed. -/
structure Delivers (done : AncestorsExport) (fs : FileSystem) (target content : String)
    (answer : Result) : Prop where
  written : ∀ place, fs.fileTarget target = .ok place → fs.Fits (Utf8.encode content) →
    done.result = some (.ok answer) ∧ done.fileSystem.read target = .ok (Utf8.encode content)
  stopped : ∀ place fault part, fs.fileTarget target = .ok place →
    fs.Stops (Utf8.encode content) fault part →
    done.result = some (.error fault) ∧ done.fileSystem.read target = .ok part
  nowhere : ∀ fault, fs.fileTarget target = .error fault →
    done.result = some (.error fault) ∧ done.fileSystem = fs
  elsewhere : ∀ other, fs.fileTarget target ≠ .ok other →
    FileSystem.entry? done.fileSystem other = fs.entry? other
  fails : ∀ fault, done.result = some (.error fault) →
    (fs.write target (Utf8.encode content)).1 = .error fault

/-- An export that passes on what came of writing delivers. -/
theorem delivers_of_write {done : AncestorsExport} {content : String} {answer : Result}
    (hResult : done.result =
      some ((fs.write target (Utf8.encode content)).1.map fun _ => answer))
    (hFiles : done.fileSystem = (fs.write target (Utf8.encode content)).2) :
    Delivers done fs target content answer where
  -- The write takes all of the content, a part of it, or none; the path leads somewhere or not.
  written := by
    intro place hTarget hFits
    rw [write_of_fileTarget hTarget, accept_of_fits hFits] at hResult hFiles
    rw [hFiles]
    exact ⟨hResult, read_put_self hTarget _⟩
  stopped := by
    intro place fault part hTarget hStops
    rw [write_of_fileTarget hTarget, accept_of_stops hStops] at hResult hFiles
    rw [hFiles]
    exact ⟨hResult, read_put_self hTarget _⟩
  nowhere := by
    intro fault hTarget
    rw [write_of_fileTarget_error hTarget] at hResult hFiles
    exact ⟨hResult, hFiles⟩
  elsewhere := by
    intro other hOther
    rw [hFiles]
    exact (writing_write fs target _).elsewhere hOther
  fails := by
    intro fault hFault
    rw [hFault, Option.some.injEq] at hResult
    cases hWritten : (fs.write target (Utf8.encode content)).1 with
    | ok _ =>
      rw [hWritten] at hResult
      cases hResult
    | error other =>
      rw [hWritten] at hResult
      cases hResult
      rfl

/-- After a failed extraction its message is written, and there is no further progress. -/
theorem run_of_failure {failure : ExtractionFailure} {steps : Nat}
    (hExtracts : Extracts strategy (console.reply console.log.length) interpreter (.error failure)
      steps) (fs : FileSystem) (project : Project) (config : Configuration)
    (indicator : Indicator) (target : String) :
    let done := run fs strategy console project interpreter config indicator target
    Delivers done fs target (failure.message ++ "\n") (.extractionFailed failure.message) ∧
      Advances config.progressFractions indicator steps done.indicator := by
  obtain ⟨hResult, hAdvances⟩ :=
    extract_of_extracts hExtracts project config.progressFractions indicator
  rw [run]
  dsimp only
  rw [hResult]
  exact ⟨delivers_of_write rfl rfl, hAdvances⟩

/-- After any other extraction the report is written, with one step before it and, if it could be
    written, one behind it. -/
theorem run_of_records {records : List AncestorRecord} {steps : Nat}
    (hExtracts : Extracts strategy (console.reply console.log.length) interpreter (.ok records)
      steps) (fs : FileSystem) (project : Project) (config : Configuration)
    (indicator : Indicator) (target : String) :
    let done := run fs strategy console project interpreter config indicator target
    let written := (fs.write target (Utf8.encode (AncestorsReport.render records))).1
    Delivers done fs target (AncestorsReport.render records) (.written records.length) ∧
      (written = .ok () →
        Advances config.progressFractions indicator (steps + 2) done.indicator) ∧
      (∀ fault, written = .error fault →
        Advances config.progressFractions indicator (steps + 1) done.indicator) := by
  obtain ⟨hResult, hAdvances⟩ :=
    extract_of_extracts hExtracts project config.progressFractions indicator
  rw [run]
  dsimp only
  rw [hResult]
  dsimp only [Outcome.ofExcept]
  -- The last advance comes after the write, so only if it succeeded.
  cases hWrite : fs.write target (Utf8.encode (AncestorsReport.render records)) with
  | mk written after =>
    cases written with
    | ok _ =>
      refine ⟨delivers_of_write ?_ ?_, fun _ => hAdvances.advance.advance, nofun⟩
      · rw [hWrite]
        rfl
      · rw [hWrite]
    | error fault =>
      refine ⟨delivers_of_write ?_ ?_, nofun, fun _ _ => hAdvances.advance⟩
      · rw [hWrite]
        rfl
      · rw [hWrite]

/-- After a crash nothing is written, and only the start has been shown. -/
theorem run_of_crash (hInterpreter : interpreter ≠ none)
    (hReply : console.reply console.log.length = .crash) (fs : FileSystem) (project : Project)
    (config : Configuration) (indicator : Indicator) (target : String) :
    let done := run fs strategy console project interpreter config indicator target
    done.result = none ∧ done.fileSystem = fs ∧
      Advances config.progressFractions indicator 1 done.indicator := by
  obtain ⟨interpreter, rfl⟩ := Option.ne_none_iff_exists'.1 hInterpreter
  rw [run, extract, Strategy.extract, Console.execute]
  dsimp only
  rw [hReply]
  exact ⟨rfl, rfl, (Advances.zero _ indicator).advance⟩

/-- The console is asked once if there is an interpreter, and else not at all. -/
theorem log_run (fs : FileSystem) (strategy : Strategy) (console : Console) (project : Project)
    (interpreter : Option Interpreter) (config : Configuration) (indicator : Indicator)
    (target : String) :
    (run fs strategy console project interpreter config indicator target).console.log =
      console.log ++ interpreter.toList.map fun i => ⟨project, i, strategy.script project⟩ := by
  rw [← log_extract strategy config.progressFractions
    (indicator.advance config.progressFractions) console, run]
  dsimp only
  split
  · rfl
  · rfl
  · split <;> rfl

/-- **What an export tells is true at every stage**, for either strategy, any console, interpreter,
    configuration, indicator, file system and target.  The console is asked at most once, and only
    with an interpreter.  However far the extraction gets, its records or the message of its failure
    are what the target holds afterwards and what the result says; the export fails only if the
    target cannot be written.

    The indicator is advanced once for a start without an interpreter or a refused script, twice if
    what was printed is lost, three times if it cannot be read, four times if the report cannot be
    written and five times if all is well; each time it shows the fraction before and one part more,
    but at most one.  A console that crashes leaves no result and no file, and the indicator at its
    first step. -/
theorem run_tells_truth (fs : FileSystem) (strategy : Strategy) (console : Console)
    (project : Project) (interpreter : Option Interpreter) (config : Configuration)
    (indicator : Indicator) (target : String) :
    let done := run fs strategy console project interpreter config indicator target
    let reply := console.reply console.log.length
    let fractions := config.progressFractions
    done.console.log =
        console.log ++ interpreter.toList.map (fun i => ⟨project, i, strategy.script project⟩) ∧
    (interpreter = none ∨ reply ≠ .crash →
      ∃ extracted steps, Extracts strategy reply interpreter extracted steps) ∧
    (∀ failure steps, Extracts strategy reply interpreter (.error failure) steps →
      Delivers done fs target (failure.message ++ "\n") (.extractionFailed failure.message) ∧
        Advances fractions indicator steps done.indicator) ∧
    (∀ records steps, Extracts strategy reply interpreter (.ok records) steps →
      let written := (fs.write target (Utf8.encode (AncestorsReport.render records))).1
      Delivers done fs target (AncestorsReport.render records) (.written records.length) ∧
        (written = .ok () → Advances fractions indicator 5 done.indicator) ∧
        ∀ fault, written = .error fault → Advances fractions indicator 4 done.indicator) ∧
    (∀ fault, done.result = some (.error fault) →
      ∃ extracted steps, Extracts strategy reply interpreter extracted steps ∧
        (fs.write target (Utf8.encode (contentOf extracted))).1 = .error fault) ∧
    (interpreter ≠ none → reply = .crash →
      done.result = none ∧ done.fileSystem = fs ∧
        Advances fractions indicator 1 done.indicator) := by
  intro done reply fractions
  refine ⟨log_run fs strategy console project interpreter config indicator target,
    exists_extracts strategy,
    fun failure steps hExtracts => run_of_failure hExtracts fs project config indicator target,
    fun records steps hExtracts => ?_, fun fault hResult => ?_,
    fun hSome hCrash => run_of_crash hSome hCrash fs project config indicator target⟩
  · obtain rfl : steps = 3 := by
      cases hExtracts
      rfl
    exact run_of_records hExtracts fs project config indicator target
  · by_cases hReply : interpreter = none ∨ reply ≠ .crash
    · obtain ⟨extracted, steps, hExtracts⟩ := exists_extracts strategy hReply
      cases extracted with
      -- A report of the failure is written too, so its write may have failed as well.
      | error failure =>
        obtain ⟨hDelivers, -⟩ := run_of_failure hExtracts fs project config indicator target
        exact ⟨_, steps, hExtracts, hDelivers.fails fault hResult⟩
      | ok records =>
        obtain ⟨hDelivers, -⟩ := run_of_records hExtracts fs project config indicator target
        exact ⟨_, steps, hExtracts, hDelivers.fails fault hResult⟩
    · rw [not_or, Decidable.not_not] at hReply
      have hNothing : done.result = none :=
        (run_of_crash hReply.1 hReply.2 fs project config indicator target).1
      rw [hNothing] at hResult
      cases hResult

end Lineage.AncestorsExport
