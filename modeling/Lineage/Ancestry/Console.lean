/-
  Consoles: where scripts run.

  A console is asked to run a script and then for what it printed; either step may fail, and
  running may crash altogether.  `reply` says what becomes of each run, by its number; the console
  keeps a log of the runs it was asked for, also of those that failed.
-/
import Lineage.Project

namespace Lineage

/-- What becomes of one run. -/
inductive Reply where
  | output (text : String)
  /-- The script was not run. -/
  | refused (reason : String)
  /-- The script was run, but what it printed is lost. -/
  | unreadable (reason : String)
  | crash
  deriving DecidableEq, Repr

/-- One run that was asked for. -/
structure Execution where
  project : Project
  interpreter : Interpreter
  script : String
  deriving DecidableEq, Repr

/-- A console, with what it will reply to each run and what it has been asked for. -/
structure Console where
  reply : Nat → Reply
  log : List Execution := []

namespace Console

/-- A console that replies the same to every run. -/
def always (reply : Reply) : Console := { reply := fun _ => reply }

/-- A console with a list of replies, of which the last one is repeated. -/
def replying (first : Reply) (others : List Reply) : Console where
  reply n := (first :: others)[n]?.getD (others.getLast?.getD first)

/-- Run a script. -/
def execute (console : Console) (execution : Execution) : Reply × Console :=
  (console.reply console.log.length, { console with log := console.log ++ [execution] })

/-- The number of runs so far. -/
def executions (console : Console) : Nat := console.log.length

/-- The script that was run last. -/
def lastScript? (console : Console) : Option String := console.log.getLast?.map (·.script)

end Console

end Lineage
