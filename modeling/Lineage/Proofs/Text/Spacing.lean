/-
  White space between words and around lines.

  Words and lines are pieces between separators, and text falls apart at a separator, whatever
  stands before it and after it (`List.splitOnP_append_cons`).  From this comes what readers rely
  on: words with one blank between them are read back as these words, and of some lines one below
  the other only their CONTENTS are read, which no white space around the lines and no blank line
  between them can change (`contents_of_spaced`).
-/
import Lineage.Text.Blank
import Mathlib.Data.List.DropRight

namespace Lineage.Text

/-- The model's `split` is that of the library. -/
theorem split_eq_splitOnP (isSeparator : Char → Bool) (text : List Char) :
    split isSeparator text = text.splitOnP isSeparator := by
  induction text with
  | nil => rw [split, List.splitOnP_nil]
  | cons c rest ih =>
    rw [split, List.splitOnP_cons_eq_if_modifyHead, ih]
    cases hRest : rest.splitOnP isSeparator with
    | nil => exact absurd hRest (List.splitOnP_ne_nil isSeparator rest)
    | cons piece pieces => rfl

/-- A piece is made of characters of the text, and holds no separator. -/
theorem of_mem_split {isSeparator : Char → Bool} {text piece : List Char}
    (hPiece : piece ∈ split isSeparator text) : ∀ c ∈ piece, c ∈ text ∧ isSeparator c = false := by
  induction text generalizing piece with
  | nil =>
    rw [split, List.mem_singleton] at hPiece
    subst hPiece
    exact List.forall_mem_nil _
  | cons first rest ih =>
    have hRest : ∀ piece ∈ split isSeparator rest, ∀ c ∈ piece,
        c ∈ first :: rest ∧ isSeparator c = false := fun piece hPiece c hMem =>
      (ih hPiece c hMem).imp_left (List.mem_cons_of_mem first)
    rw [split] at hPiece
    split at hPiece
    · rcases List.mem_cons.1 hPiece with rfl | hPiece
      · exact List.forall_mem_nil _
      · exact hRest piece hPiece
    · rename_i hPlain
      rw [Bool.not_eq_true] at hPlain
      -- The first character belongs to the first piece of the rest.
      cases hSplit : split isSeparator rest with
      | nil => exact absurd hSplit (split_ne_nil isSeparator rest)
      | cons next pieces =>
        rw [hSplit, List.forall_mem_cons] at hRest
        rw [hSplit] at hPiece
        rcases List.mem_cons.1 hPiece with rfl | hPiece
        · exact List.forall_mem_cons.2 ⟨⟨List.mem_cons_self, hPlain⟩, hRest.1⟩
        · exact hRest.2 piece hPiece

/-- **A separator ends what stands before it**: of two texts that are cut at their first separators,
    the parts are the same if the texts are. -/
theorem append_separator_inj {separator : Char} {before before' after after' : List Char}
    (hBefore : separator ∉ before) (hBefore' : separator ∉ before')
    (hSame : before ++ separator :: after = before' ++ separator :: after') :
    before = before' ∧ after = after' := by
  induction before generalizing before' with
  | nil =>
    cases before' with
    | nil => exact ⟨rfl, List.tail_eq_of_cons_eq hSame⟩
    | cons c rest => exact absurd (List.head_eq_of_cons_eq hSame ▸ List.mem_cons_self) hBefore'
  | cons c rest ih =>
    cases before' with
    | nil => exact absurd (List.head_eq_of_cons_eq hSame ▸ List.mem_cons_self) hBefore
    | cons c' rest' =>
      rw [List.mem_cons, not_or] at hBefore hBefore'
      obtain ⟨rfl, hRest⟩ := List.cons.inj hSame
      obtain ⟨rfl, hAfter⟩ := ih hBefore.2 hBefore'.2 hRest
      exact ⟨rfl, hAfter⟩

/-! ## Words -/

/-- One or more characters, none of them white space. -/
structure IsWord (word : List Char) : Prop where
  nonempty : word ≠ []
  unbroken : ∀ c ∈ word, isBlank c = false

-- The characters of the text are gone through, and not all the characters that there are.
instance (word : List Char) : Decidable (IsWord word) :=
  haveI : Decidable (∀ c ∈ word, isBlank c = false) := List.decidableBAll _ word
  decidable_of_iff (word ≠ [] ∧ ∀ c ∈ word, isBlank c = false)
    ⟨fun ⟨hNonempty, hUnbroken⟩ => ⟨hNonempty, hUnbroken⟩, fun hWord =>
      ⟨hWord.nonempty, hWord.unbroken⟩⟩

/-- What is read as a word is one. -/
theorem isWord_of_mem_words {text word : List Char} (hWord : word ∈ words text) : IsWord word := by
  obtain ⟨hPiece, hNonempty⟩ := List.mem_filter.1 hWord
  exact ⟨of_decide_eq_true hNonempty, fun c hMem => (of_mem_split hPiece c hMem).2⟩

theorem words_append_blank {c : Char} (hBlank : isBlank c = true) (before after : List Char) :
    words (before ++ c :: after) = words before ++ words after := by
  simp only [words, split_eq_splitOnP, List.splitOnP_append_cons before after hBlank,
    List.filter_append]

theorem IsWord.words_eq {word : List Char} (hWord : IsWord word) : words word = [word] := by
  rw [words, split_eq_splitOnP, List.splitOnP_eq_singleton hWord.unbroken, List.filter_eq_self]
  simpa using hWord.nonempty

/-- **Words with blanks between them are read back.** -/
theorem words_intercalate {texts : List (List Char)} (hWords : ∀ text ∈ texts, IsWord text) :
    words ([' '].intercalate texts) = texts := by
  induction texts with
  | nil => rfl
  | cons first rest ih =>
    obtain ⟨hFirst, hRest⟩ := List.forall_mem_cons.1 hWords
    cases rest with
    | nil => rw [List.intercalate_singleton, hFirst.words_eq]
    | cons second others =>
      rw [List.intercalate_cons_cons, List.append_assoc, List.singleton_append,
        words_append_blank (by decide), hFirst.words_eq, ih hRest, List.singleton_append]

theorem IsWord.newline_not_mem {word : List Char} (hWord : IsWord word) : '\n' ∉ word := by
  intro hMem
  exact Bool.false_ne_true ((hWord.unbroken '\n' hMem).symm.trans (by decide))

/-- Words with blanks between them stand on one line. -/
theorem newline_not_mem_intercalate {texts : List (List Char)}
    (hWords : ∀ text ∈ texts, IsWord text) : '\n' ∉ [' '].intercalate texts := by
  induction texts with
  | nil => exact List.not_mem_nil
  | cons first rest ih =>
    obtain ⟨hFirst, hRest⟩ := List.forall_mem_cons.1 hWords
    cases rest with
    | nil =>
      rw [List.intercalate_singleton]
      exact hFirst.newline_not_mem
    | cons second others =>
      rw [List.intercalate_cons_cons]
      exact List.not_mem_append (List.not_mem_append hFirst.newline_not_mem (by decide)) (ih hRest)

/-! ## Ends -/

/-- White space only. -/
def AllBlank (text : List Char) : Prop := ∀ c ∈ text, isBlank c = true

instance (text : List Char) : Decidable (AllBlank text) :=
  List.decidableBAll _ text

/-- Trimming adds no characters. -/
theorem trim_subset (text : List Char) : trim text ⊆ text := by
  intro c hMem
  rw [trim, List.mem_reverse] at hMem
  exact (List.dropWhile_sublist _).subset
    (List.mem_reverse.1 ((List.dropWhile_sublist _).subset hMem))

theorem trim_append_of_allBlank {before : List Char} (hBefore : AllBlank before)
    (text : List Char) : trim (before ++ text) = trim text := by
  rw [trim, List.dropWhile_append_of_pos hBefore, ← trim]

/-- Blanks behind are trimmed away. -/
theorem trim_append_allBlank (text : List Char) {after : List Char} (hAfter : AllBlank after) :
    trim (text ++ after) = trim text := by
  have hReversed : ∀ c ∈ after.reverse, isBlank c = true :=
    fun c hMem => hAfter c (List.mem_reverse.1 hMem)
  rw [trim, trim, List.dropWhile_append]
  split
  · rename_i hNothing
    rw [List.dropWhile_eq_nil_iff.2 hAfter, List.isEmpty_iff.1 hNothing]
  · rw [List.reverse_append, List.dropWhile_append_of_pos hReversed]

/-- A text that neither starts nor ends with white space is left as it is. -/
theorem trim_eq_self {first last : Char} {text : List Char} (hFirst : text.head? = some first)
    (hLast : text.getLast? = some last) (hStarts : isBlank first = false)
    (hEnds : isBlank last = false) : trim text = text := by
  obtain ⟨rest, rfl⟩ := List.head?_eq_some_iff.1 hFirst
  obtain ⟨front, hFront⟩ := List.getLast?_eq_some_iff.1 hLast
  rw [trim, List.dropWhile_cons_of_neg (by rw [hStarts]; exact Bool.false_ne_true), hFront,
    List.reverse_append, List.reverse_singleton, List.singleton_append,
    List.dropWhile_cons_of_neg (by rw [hEnds]; exact Bool.false_ne_true), ← List.singleton_append,
    List.reverse_append, List.reverse_reverse, List.reverse_singleton]

theorem IsWord.trim_eq {word : List Char} (hWord : IsWord word) : trim word = word := by
  have hFirst := List.head?_eq_some_head hWord.nonempty
  have hLast := List.getLast?_eq_some_getLast hWord.nonempty
  exact trim_eq_self hFirst hLast (hWord.unbroken _ (List.head_mem _))
    (hWord.unbroken _ (List.getLast_mem _))

/-! ## Lines -/

theorem newline_not_mem_of_mem_lines {text line : List Char} (hLine : line ∈ lines text) :
    '\n' ∉ line := by
  intro hMem
  exact absurd rfl (of_decide_eq_false (of_mem_split hLine '\n' hMem).2)

/-- What the lines of a text hold: each without the white space around it, blank ones left out. -/
def contents (text : List Char) : List (List Char) := ((lines text).map trim).filter (· ≠ [])

theorem contents_append_newline (before after : List Char) :
    contents (before ++ '\n' :: after) = contents before ++ contents after := by
  rw [contents, lines, split_eq_splitOnP, List.splitOnP_append_cons before after (by simp),
    List.map_append, List.filter_append, ← split_eq_splitOnP, ← split_eq_splitOnP]
  rfl

/-- A text of one line, which is not blank, holds that line. -/
theorem contents_of_line {line : List Char} (hLine : '\n' ∉ line) (hTrim : trim line ≠ []) :
    contents line = [trim line] := by
  have hPlain : ∀ c ∈ line, decide (c = '\n') = false := by
    intro c hMem
    exact decide_eq_false (ne_of_mem_of_not_mem hMem hLine)
  rw [contents, lines, split_eq_splitOnP, List.splitOnP_eq_singleton hPlain, List.map_singleton,
    List.filter_eq_self]
  simpa using hTrim

/-- A blank in front is part of the first line, or a line of its own. -/
theorem contents_cons_blank {c : Char} (hBlank : isBlank c = true) (text : List Char) :
    contents (c :: text) = contents text := by
  by_cases hNewline : c = '\n'
  · subst hNewline
    exact contents_append_newline [] text
  · rw [contents, lines, split_eq_splitOnP, List.splitOnP_cons_eq_if_modifyHead,
      if_neg (by simpa using hNewline), ← split_eq_splitOnP, contents, lines]
    cases split (· = '\n') text with
    | nil => rfl
    | cons line rest =>
      have hTrim : trim (c :: line) = trim line :=
        trim_append_of_allBlank (List.forall_mem_singleton.2 hBlank) line
      rw [List.modifyHead_cons, List.map_cons, List.map_cons, hTrim]

theorem contents_append_of_allBlank {before : List Char} (hBefore : AllBlank before)
    (text : List Char) : contents (before ++ text) = contents text := by
  induction before with
  | nil => rfl
  | cons c rest ih =>
    obtain ⟨hBlank, hRest⟩ := List.forall_mem_cons.1 hBefore
    rw [List.cons_append, contents_cons_blank hBlank, ih hRest]

theorem contents_of_allBlank {text : List Char} (hBlank : AllBlank text) : contents text = [] := by
  have hNothing := contents_append_of_allBlank hBlank []
  rw [List.append_nil] at hNothing
  exact hNothing

/-- **A line with white space around it** is held without it. -/
theorem contents_of_padded {before line after : List Char} (hBefore : AllBlank before)
    (hAfter : AllBlank after) (hLine : '\n' ∉ line) (hTrim : trim line ≠ []) :
    contents (before ++ line ++ after) = [trim line] := by
  rw [List.append_assoc, contents_append_of_allBlank hBefore]
  by_cases hNewline : '\n' ∈ after
  · -- The line goes on up to the first line end behind it; only blank lines are left.
    obtain ⟨near, far, rfl, hNear⟩ := List.eq_append_cons_of_mem hNewline
    have hNearBlank : AllBlank near := fun c hMem => hAfter c (List.mem_append_left _ hMem)
    have hFarBlank : AllBlank far := fun c hMem =>
      hAfter c (List.mem_append_right _ (List.mem_cons_of_mem _ hMem))
    rw [← List.append_assoc, contents_append_newline, contents_of_allBlank hFarBlank,
      List.append_nil, contents_of_line, trim_append_allBlank line hNearBlank]
    · exact List.not_mem_append hLine hNear
    · rwa [trim_append_allBlank line hNearBlank]
  · rw [contents_of_line, trim_append_allBlank line hAfter]
    · exact List.not_mem_append hLine hNewline
    · rwa [trim_append_allBlank line hAfter]

/-- `Spaced texts text`: the texts one below the other, with white space around them and blank lines
    in between as one likes. -/
inductive Spaced : List (List Char) → List Char → Prop
  | blank {space : List Char} (hSpace : AllBlank space) : Spaced [] space
  | last {before line after : List Char} (hBefore : AllBlank before) (hAfter : AllBlank after) :
      Spaced [line] (before ++ line ++ after)
  | cons {before line after : List Char} {texts : List (List Char)} {rest : List Char}
      (hBefore : AllBlank before) (hAfter : AllBlank after) (hRest : Spaced texts rest) :
      Spaced (line :: texts) (before ++ line ++ after ++ '\n' :: rest)

/-- Each text with a line end behind it. -/
theorem spaced_flatMap (texts : List (List Char)) :
    Spaced texts (texts.flatMap fun line => line ++ ['\n']) := by
  induction texts with
  | nil => exact .blank (List.forall_mem_nil _)
  | cons line rest ih =>
    have hFirst : Spaced (line :: rest) ([] ++ line ++ [] ++ '\n' :: _) :=
      .cons (List.forall_mem_nil _) (List.forall_mem_nil _) ih
    simpa using hFirst

/-- **White space between lines does not count.** -/
theorem contents_of_spaced {texts : List (List Char)} {text : List Char}
    (hSpaced : Spaced texts text) (hLines : ∀ line ∈ texts, '\n' ∉ line ∧ trim line ≠ []) :
    contents text = texts.map trim := by
  induction hSpaced with
  | blank hSpace => exact contents_of_allBlank hSpace
  | @last before line after hBefore hAfter =>
    obtain ⟨hLine, hTrim⟩ := hLines line (List.mem_singleton_self line)
    exact contents_of_padded hBefore hAfter hLine hTrim
  | cons hBefore hAfter _ ih =>
    obtain ⟨⟨hLine, hTrim⟩, hRest⟩ := List.forall_mem_cons.1 hLines
    rw [contents_append_newline, contents_of_padded hBefore hAfter hLine hTrim, ih hRest,
      List.map_cons, List.singleton_append]

end Lineage.Text
