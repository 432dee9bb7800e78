/-
  Qualified names and the scopes they open.

  `A::B::C` is written inside `A::B`, which is written inside `A`.  A reference in a scope means
  the first thing declared of that name going from the scope outward, and is taken as written
  where nothing of that name is declared.
-/

namespace Lineage.Scope

/-! ## The scope a name is written in -/

/-- The part before the last `::`. -/
def outerChars : List Char → Option (List Char)
  | [] => none
  | c :: rest =>
    match outerChars rest with
    | some outer => some (c :: outer)
    | none => if [':', ':'].isPrefixOf (c :: rest) then some [] else none

/-- A scope is shorter than a name in it by the `::` at least. -/
theorem outerChars_length {name outer : List Char} (houter : outerChars name = some outer) :
    outer.length + 2 ≤ name.length := by
  induction name generalizing outer with
  | nil => simp [outerChars] at houter
  | cons c rest ih =>
    rw [outerChars] at houter
    split at houter
    · rename_i inner hinner
      have := ih hinner
      cases houter
      simp only [List.length_cons]
      omega
    · split at houter
      · rename_i hprefix
        cases houter
        have := (List.isPrefixOf_iff_prefix.1 hprefix).length_le
        simpa using this
      · cases houter

/-- The scope that `name` is written in, if it is qualified. -/
def outer? (name : String) : Option String := (outerChars name.toList).map String.ofList

/-- So going outward ends: each scope is shorter than the one inside it. -/
theorem outer?_length {name outer : String} (houter : outer? name = some outer) :
    outer.length < name.length := by
  simp only [outer?, Option.map_eq_some_iff] at houter
  obtain ⟨chars, hchars, rfl⟩ := houter
  have := outerChars_length hchars
  rw [String.length_ofList, ← String.length_toList]
  omega

/-- `name` and the scopes around it, innermost first. -/
def outward (name : String) : List String :=
  name :: match _hOuter : outer? name with
    | none => []
    | some outer => outward outer
termination_by name.length
decreasing_by exact outer?_length _hOuter

/-- The scopes around `name`, innermost first, without `name` itself. -/
def around (name : String) : List String :=
  match outer? name with
  | none => []
  | some outer => outward outer

/-! ## References -/

/-- `reference` as a name inside `scope`. -/
def qualify (scope reference : String) : String := scope ++ "::" ++ reference

/-- What `reference` means where the scopes `scopes` are open, innermost first. -/
def resolve (isDeclared : String → Bool) (scopes : List String) (reference : String) : String :=
  ((scopes.map (qualify · reference)).find? isDeclared).getD reference

example : outer? "A::B::C" = some "A::B" := by decide
example : outer? "A:::B" = some "A:" := by decide
example : resolve (· = "A::X") ["A::B", "A"] "X" = "A::X" := by decide

end Lineage.Scope
