/-
  Linearization: from declarations to ancestor chains.

  The chain of a name is the chains of the modules prepended to it, the name, the chains of the
  modules included in it and the chain of its superclass, one after the other; a name that occurs
  more than once stays where it occurs LAST.  A name of which nothing is known is its own chain.

  The walk carries two things along: the names whose chains are under way (`visiting`), by which a
  cycle is seen, and the chains that are finished (`memo`), by which no chain is made twice.

  Termination.  A name goes under way only if it is known and not under way yet, so the number of
  known names that are not under way (`idle`) falls with every step into a chain.
-/
import Lineage.Ancestry.Declarations
import Lineage.Record.Method

namespace Lineage

/-- Each element once, at its last place. -/
def keepLast {α : Type} [DecidableEq α] : List α → List α
  | [] => []
  | a :: rest => if a ∈ rest then keepLast rest else a :: keepLast rest

namespace DeclarationTable

/-- The known names that are not under way. -/
def idle (table : DeclarationTable) (visiting : List String) : List String :=
  table.known.keys.filter (· ∉ visiting)

/-- One name less is idle once a known name that was idle is under way; this is what makes the walk
    end. -/
theorem idle_cons_lt {table : DeclarationTable} {visiting : List String} {name : String}
    {d : Declaration} (hKnown : table.known.get? name = some d) (hIdle : name ∉ visiting) :
    (table.idle (name :: visiting)).length < (table.idle visiting).length := by
  have hKey : name ∈ table.known.keys := by
    by_cases hMem : name ∈ table.known.keys
    · exact hMem
    · rw [OrderedMap.get?_eq_none_iff.2 hMem] at hKnown; cases hKnown
  have hFilter : table.idle (name :: visiting) = (table.idle visiting).filter (· ≠ name) := by
    simp only [idle, List.filter_filter, List.mem_cons, not_or]
    congr 1; funext other; simp
  rw [hFilter]
  refine List.length_filter_lt_length_iff_exists.2 ⟨name, ?_, by simp⟩
  exact List.mem_filter.2 ⟨hKey, by simpa using hIdle⟩

/-- Finished chains. -/
abbrev Memo : Type := OrderedMap String (List String)

mutual

/-- The chain of `name`, while those of `visiting` are under way. -/
def chain (table : DeclarationTable) (visiting : List String) (memo : Memo) (name : String) :
    Except ExtractionFailure (List String × Memo) :=
  match memo.get? name with
  | some finished => .ok (finished, memo)
  | none =>
    match _hKnown : table.known.get? name with
    | none => .ok ([name], memo)
    | some d =>
      if _hBusy : name ∈ visiting then .error (.cycle name)
      else do
        let (before, memo) ← chains table (name :: visiting) memo (table.before name d)
        let (after, memo) ← chains table (name :: visiting) memo (table.after name d)
        let linear := keepLast (before ++ name :: after)
        return (linear, memo.insert name linear)
termination_by ((table.idle visiting).length, 0)
decreasing_by
  · exact Prod.Lex.left _ _ (idle_cons_lt _hKnown _hBusy)
  · exact Prod.Lex.left _ _ (idle_cons_lt _hKnown _hBusy)

/-- The chains of several names, one after the other. -/
def chains (table : DeclarationTable) (visiting : List String) (memo : Memo) :
    List String → Except ExtractionFailure (List String × Memo)
  | [] => .ok ([], memo)
  | name :: rest => do
    let (first, memo) ← chain table visiting memo name
    let (others, memo) ← chains table visiting memo rest
    return (first ++ others, memo)
termination_by names => ((table.idle visiting).length, names.length)
decreasing_by
  · exact Prod.Lex.right _ (by simp)
  · exact Prod.Lex.right _ (by simp)

end

/-- The records of `names`, in order. -/
def records (table : DeclarationTable) (memo : Memo) :
    List String → Except ExtractionFailure (List AncestorRecord)
  | [] => .ok []
  | name :: rest => do
    let (ancestors, memo) ← table.chain [] memo name
    let others ← records table memo rest
    return ⟨name, ancestors⟩ :: others

/-- The chains of all names that a dump declares, in the order of their declarations. -/
def linearize (dump : String) : Except ExtractionFailure (List AncestorRecord) := do
  let table ← ofDump dump
  table.records .empty table.declared

end DeclarationTable

end Lineage
