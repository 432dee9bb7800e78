/-
  Reading printed ancestor chains.

  A console that looks at the loaded modules prints one line for each:

      Name: Ancestor Ancestor ...

  Anonymous modules print as `#<...>`; they are dropped, as modules and as ancestors.  A name that
  is printed twice was loaded twice, and the later line holds.  The records come out in the order
  of their names.
-/
import Lineage.Ancestry.Failure
import Lineage.OrderedMap
import Lineage.Record.Method
import Lineage.Text.Blank

namespace Lineage.ObjectSpace

/-- The parts of a text around the first `: `. -/
def splitAtColon : List Char → Option (List Char × List Char)
  | ':' :: ' ' :: rest => some ([], rest)
  | c :: rest => (splitAtColon rest).map fun (before, after) => (c :: before, after)
  | [] => none

/-- A module without a name of its own. -/
def isAnonymous (name : List Char) : Bool := ['#', '<'].isPrefixOf name

/-- The name and the ancestors on a trimmed line.  After the colon there is a space, or the line
    ends with the colon and the chain is empty. -/
def entry? (line : List Char) : Option (List Char × List (List Char)) := do
  let (name, chain) ← match splitAtColon line with
    | some parts => some parts
    | none => if line.getLast? = some ':' then some (line.dropLast, []) else none
  let name := Text.trim name
  if name = [] then none
  else some (name, (Text.words chain).filter fun ancestor => !isAnonymous ancestor)

/-- The chains of the lines `lines`, of which the first has the number `number`, added to
    `chains`. -/
def addLines (chains : OrderedMap String (List String)) (number : Nat) :
    List (List Char) → Except ExtractionFailure (OrderedMap String (List String))
  | [] => .ok chains
  | line :: rest =>
    let content := Text.trim line
    if content = [] then addLines chains (number + 1) rest
    else
      match entry? content with
      | none => .error (.malformed number (String.ofList content))
      | some (name, ancestors) =>
        if isAnonymous name then addLines chains (number + 1) rest
        else
          addLines (chains.insert (String.ofList name) (ancestors.map String.ofList))
            (number + 1) rest

/-- The records of the printed chains, by name. -/
def parse (output : String) : Except ExtractionFailure (List AncestorRecord) := do
  let chains ← addLines .empty 1 (Text.lines output.toList)
  let records := chains.entries.map fun (name, ancestors) => AncestorRecord.mk name ancestors
  return records.mergeSort fun a b => a.name ≤ b.name

end Lineage.ObjectSpace
