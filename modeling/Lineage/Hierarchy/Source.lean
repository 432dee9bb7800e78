/-
  What a hierarchy is made from: a source of ancestor chains, and a provider of members.

  Both may crash, and both keep a record of what they were asked: the console of an extractor logs
  its runs, the provider its look-ups.
-/
import Lineage.Ancestry.Extraction
import Lineage.Hierarchy.MethodTable

namespace Lineage

/-! ## Ancestors -/

/-- Ancestor chains by name. -/
abbrev AncestorTable : Type := OrderedMap String (List String)

/-- The table of some records; of two with one name the later one holds. -/
def AncestorTable.ofRecords (records : List AncestorRecord) : AncestorTable :=
  .ofList (records.map fun record => (record.name, record.ancestors))

/-- Where a cache takes its ancestor chains from. -/
inductive AncestorSource where
  /-- Records that are there already. -/
  | materialized (records : List AncestorRecord)
  /-- Records to be extracted from a project; without an interpreter that must fail. -/
  | extractor (strategy : Strategy) (console : Console) (project : Project)
      (interpreter : Option Interpreter)

namespace AncestorSource

/-- Load the table.  An extractor uses its console. -/
def load : AncestorSource → Outcome AncestorTable ExtractionFailure × AncestorSource
  | materialized records => (.value (.ofRecords records), materialized records)
  | extractor strategy console project none =>
    (.failure .missingRuntime, extractor strategy console project none)
  | extractor strategy console project (some interpreter) =>
    let extraction := strategy.extract .idle () console project interpreter
    let result := match extraction.result with
      | .value records => .value (AncestorTable.ofRecords records)
      | .failure error => .failure error
      | .crash => .crash
    (result, extractor strategy extraction.console project (some interpreter))

/-- The number of extractions that were run. -/
def executions : AncestorSource → Nat
  | materialized _ => 0
  | extractor _ console _ _ => console.executions

/-- A source in short. -/
def describe : AncestorSource → String
  | materialized records => s!"Materialized({records.length})"
  | extractor strategy _ project _ =>
    let kind := match strategy with
      | .objectSpace => "ObjectSpace"
      | .declarations => "Static"
    "Extractor \x7b kind: " ++ kind ++ ", project: " ++ Text.quote project.name ++ " \x7d"

end AncestorSource

/-! ## Members -/

/-- A provider of the members of classes.  Its answers depend on the class alone, but it may crash,
    depending also on what it was asked before. -/
structure MemberProvider where
  members : String → List MethodDescriptor
  crashes : (asked : List String) → (className : String) → Bool := fun _ _ => false
  asked : List String := []

namespace MemberProvider

/-- Ask for the members of a class; `none` if the provider crashes. -/
def membersOf (provider : MemberProvider) (className : String) :
    Option (List MethodDescriptor) × MemberProvider :=
  (if provider.crashes provider.asked className then none else some (provider.members className),
    { provider with asked := provider.asked ++ [className] })

/-- Ask for the members of each class of a chain in turn, up to a crash. -/
def membersOfChain (provider : MemberProvider) :
    List String → Option (List MethodDescriptor) × MemberProvider
  | [] => (some [], provider)
  | className :: rest =>
    match provider.membersOf className with
    | (none, provider) => (none, provider)
    | (some methods, provider) =>
      let (others, provider) := membersOfChain provider rest
      (others.map (methods ++ ·), provider)

end MemberProvider

end Lineage
