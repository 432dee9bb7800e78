/-
  Which source roots the declaration script names.

  The roots are written into the script as an array of literals, and the console reads them back.
  They are written one by one and only a closing quote ends a literal, so the array is read as the
  list of what its literals stand for (`readItems_itemsThen`), and one of them that runs code stops
  the reading of all.

  So the list is not always read back (`not_forall_readRoots_declarations`).  It is unless a root
  starts an interpolation, or has an octal digit behind a NUL (`readRoots_declarations`).
-/
import Lineage.Proofs.Text.Literal
import Lineage.Ancestry.Script

namespace Lineage.Script

open Text

/-! ## How the console reads the array -/

/-- Literals up to a closing bracket, with a comma and blanks between them. -/
def readItems : List Char → Except LiteralFault (List (List Char))
  | '"' :: input =>
    match _hRead : readLiteral input with
    | .error fault => .error fault
    | .ok (text, ']' :: _) => .ok [text]
    | .ok (text, ',' :: rest) => (readItems (rest.dropWhile (· = ' '))).map (text :: ·)
    | .ok _ => .error .malformed
  | _ => .error .malformed
termination_by input => input.length
decreasing_by
  have hLiteral := length_lt_of_readLiteral _hRead
  have hBlanks := rest.length_dropWhile_le (· = ' ')
  simp only [List.length_cons] at hLiteral ⊢
  omega

/-- An array of string literals, as Ruby reads it; what stands behind it does not matter. -/
def readArray : List Char → Except LiteralFault (List String)
  | '[' :: ']' :: _ => .ok []
  | '[' :: rest => (readItems rest).map (·.map String.ofList)
  | _ => .error .malformed

/-- The input behind the first place where this mark stands. -/
def behind? (mark : List Char) : List Char → Option (List Char)
  | [] => none
  | c :: rest =>
    if mark.isPrefixOf (c :: rest) then some ((c :: rest).drop mark.length) else behind? mark rest

/-- The directories that a script looks at, as the console reads them. -/
def readRoots (script : String) : Except LiteralFault (List String) :=
  match behind? "ROOTS = ".toList script.toList with
  | none => .error .malformed
  | some array => readArray array

theorem readItems_of_error {input : List Char} {fault : LiteralFault}
    (h : readLiteral input = .error fault) : readItems ('"' :: input) = .error fault := by
  rw [readItems]
  split <;> simp_all

theorem readItems_of_bracket {input text rest : List Char}
    (h : readLiteral input = .ok (text, ']' :: rest)) : readItems ('"' :: input) = .ok [text] := by
  rw [readItems]
  split <;> simp_all

/-- Behind a comma come further literals. -/
theorem readItems_of_comma {input text rest : List Char}
    (h : readLiteral input = .ok (text, ',' :: rest)) :
    readItems ('"' :: input) = (readItems (rest.dropWhile (· = ' '))).map (text :: ·) := by
  rw [readItems]
  split <;> simp_all

/-! ## The array of the script -/

/-- What follows the opening bracket of an array of these texts. -/
def itemsThen (rest : List Char) (texts : List String) : List Char :=
  [',', ' '].intercalate (texts.map fun text => (quote text).toList) ++ ']' :: rest

section Items

variable (rest : List Char) (first second : String) (others : List String)

theorem itemsThen_singleton :
    itemsThen rest [first] = '"' :: (first.toList.flatMap escape ++ '"' :: ']' :: rest) := by
  simp [itemsThen, quote]

theorem itemsThen_cons :
    itemsThen rest (first :: second :: others) =
      '"' :: (first.toList.flatMap escape ++
        '"' :: ',' :: ' ' :: itemsThen rest (second :: others)) := by
  simp [itemsThen, quote, List.intercalate_cons_cons]

/-- The space after a comma belongs to no root. -/
theorem dropWhile_itemsThen :
    (' ' :: itemsThen rest (first :: others)).dropWhile (· = ' ') =
      itemsThen rest (first :: others) := by
  cases others with
  | nil => simp [itemsThen_singleton]
  | cons second others => simp [itemsThen_cons]

/-- **The array is read**, up to its bracket, as what its literals stand for, unless one of them
    runs code. -/
theorem readItems_itemsThen :
    readItems (itemsThen rest (first :: others)) =
      if (first :: others).any (interpolates ·.toList) then .error .interpolation
      else .ok ((first :: others).map (standsFor ·.toList)) := by
  induction others generalizing first with
  | nil =>
    have hRead := readLiteral_flatMap_escape first.toList (']' :: rest)
    rw [itemsThen_singleton]
    cases hRuns : interpolates first.toList with
    | true =>
      rw [if_pos hRuns] at hRead
      simp [readItems_of_error hRead, hRuns]
    | false =>
      rw [if_neg (by simp [hRuns])] at hRead
      simp [readItems_of_bracket hRead, hRuns]
  | cons second others ih =>
    -- the first text ends at its own quote, whatever stands behind it
    have hRead := readLiteral_flatMap_escape first.toList
      (',' :: ' ' :: itemsThen rest (second :: others))
    rw [itemsThen_cons, List.any_cons]
    cases hRuns : interpolates first.toList with
    | true =>
      rw [if_pos hRuns] at hRead
      simp [readItems_of_error hRead]
    | false =>
      rw [if_neg (by simp [hRuns])] at hRead
      rw [readItems_of_comma hRead, dropWhile_itemsThen, ih, Bool.false_or, List.map_cons]
      split <;> rfl

theorem readArray_itemsThen :
    readArray ('[' :: itemsThen rest (first :: others)) =
      (readItems (itemsThen rest (first :: others))).map (·.map String.ofList) := by
  cases others with
  | nil => simp [itemsThen_singleton, readArray]
  | cons second others => simp [itemsThen_cons, readArray]

end Items

/-- The script is some lines, the array, and the rest. -/
theorem toList_declarations (project : Project) :
    ∃ rest, (declarations project).toList =
      "\nrequire 'find'\nROOTS = ".toList ++ '[' :: itemsThen rest project.sourceRoots :=
  ⟨['\n'].intercalate ([] :: scanRoots.map String.toList) ++ ['\n'], by
    simp [declarations, ofLines, itemsThen, String.toList_intercalate, Function.comp_def]⟩

theorem behind?_roots (array : List Char) :
    behind? "ROOTS = ".toList ("\nrequire 'find'\nROOTS = ".toList ++ array) = some array := rfl

/-- What the console makes of the roots of a project. -/
theorem readRoots_declarations_eq (project : Project) :
    readRoots (declarations project) =
      if project.sourceRoots.any (interpolates ·.toList) then .error .interpolation
      else .ok (project.sourceRoots.map fun root => String.ofList (standsFor root.toList)) := by
  obtain ⟨rest, hScript⟩ := toList_declarations project
  obtain ⟨first, others, hRoots⟩ : ∃ first others, project.sourceRoots = first :: others :=
    ⟨project.root, project.loadPaths, rfl⟩
  rw [readRoots, hScript, behind?_roots, hRoots]
  show readArray ('[' :: itemsThen rest (first :: others)) = _
  rw [readArray_itemsThen, readItems_itemsThen]
  split
  · rfl
  · simp [Except.map]

/-- **The roots are read back**, and no code is run, exactly if none of them starts an interpolation
and none has an octal digit behind a NUL.  Code is run exactly if one starts an interpolation, and
there is no other way to fail. -/
theorem readRoots_declarations (project : Project) :
    (readRoots (declarations project) = .ok project.sourceRoots ↔
      ∀ root ∈ project.sourceRoots, ¬ interpolates root.toList ∧ ¬ NulTakesDigit root.toList) ∧
    (readRoots (declarations project) = .error .interpolation ↔
      ∃ root ∈ project.sourceRoots, interpolates root.toList) ∧
    readRoots (declarations project) ≠ .error .malformed := by
  have hSame (root : String) :
      String.ofList (standsFor root.toList) = root ↔ ¬ NulTakesDigit root.toList := by
    rw [← standsFor_eq_self_iff, ← String.toList_inj, String.toList_ofList]
  rw [readRoots_declarations_eq]
  by_cases hRuns : project.sourceRoots.any (interpolates ·.toList)
  · obtain ⟨root, hRoot, hCode⟩ := List.any_eq_true.1 hRuns
    rw [if_pos hRuns]
    refine ⟨iff_of_false (by simp) fun hAll => (hAll root hRoot).1 hCode,
      iff_of_true rfl ⟨root, hRoot, hCode⟩, by simp⟩
  · have hPlain : ∀ root ∈ project.sourceRoots, ¬ interpolates root.toList := by
      simpa using hRuns
    rw [if_neg hRuns]
    refine ⟨?_, iff_of_false (by simp) fun ⟨root, hRoot, hCode⟩ => hPlain root hRoot hCode,
      by simp⟩
    -- two lists over the same roots are compared root by root
    rw [Except.ok.injEq]
    conv_lhs => rhs; rw [← List.map_id project.sourceRoots]
    rw [List.map_inj_left]
    exact forall₂_congr fun root hRoot => by simp [hSame, hPlain root hRoot]

/-- A root with a `#` and a brace runs code. -/
theorem not_forall_readRoots_declarations :
    ¬ ∀ project : Project, readRoots (declarations project) = .ok project.sourceRoots := by
  intro hAll
  have hRead := hAll { name := "shop", root := "/srv/#\x7benv\x7d/app" }
  rw [readRoots_declarations_eq, if_pos (by decide)] at hRead
  cases hRead

end Lineage.Script
