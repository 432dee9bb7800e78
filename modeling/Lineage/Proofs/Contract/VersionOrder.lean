/-
  Versions are ordered like their lists of tokens.

  A TOKEN is a number or a word.  The tokens of a text (`HasTokens`) are its maximal runs of ASCII
  digits, by their value, and its maximal runs of other letters and numbers, by the bytes of their
  text in lower case; all other characters only separate.  Tokens compare as numbers, as byte
  sequences, and a word before a number (`Token.compare`), and lists of them lexicographically, a
  proper prefix first.

  The order of versions never makes numbers: it keeps the digits behind the leading zeros and
  compares their count first and their characters then.  That this is the order of the values, for
  numbers of any length, is `compare_ofDigitChars`; that words compare by characters as by bytes is
  the order of UTF-8.  So the runs of a version stand for its tokens one by one
  (`spells_runsIn`), and `compare_lexicographic` is the comparison of the tokens.  Tokens are
  totally ordered, and versions inherit all of it but antisymmetry.
-/
import Lineage.Contract.Version
import Lineage.Proofs.Text.ByteOrder
import Mathlib.Algebra.Group.Nat.Defs
import Mathlib.Data.List.Forall2
import Mathlib.Data.List.SplitBy
import Mathlib.Data.List.TakeWhile

namespace Lineage.Version

/-! ## Tokens -/

/-- A part of a version that counts: a number by its value, a word by its bytes. -/
inductive Token where
  | number (value : Nat)
  | word (bytes : List UInt8)
  deriving DecidableEq, Repr

/-- Numbers by value, words by their bytes, and a word before a number. -/
def Token.compare : Token → Token → Ordering
  | number m, number n => Ord.compare m n
  | word a, word b => Ord.compare a b
  | word _, number _ => .lt
  | number _, word _ => .gt

/-- The tokens of a text: a run is as long as it can be, and between runs stand separators. -/
inductive HasTokens : List Char → List Token → Prop where
  | nil : HasTokens [] []
  | separator {c : Char} {rest : List Char} {tokens : List Token}
      (hSeparator : Text.isAlphanumeric c = false) (hRest : HasTokens rest tokens) :
      HasTokens (c :: rest) tokens
  | number {digits rest : List Char} {tokens : List Token} (hSome : digits ≠ [])
      (hDigits : ∀ c ∈ digits, c.isDigit = true) (hEnd : ∀ c ∈ rest.head?, c.isDigit = false)
      (hRest : HasTokens rest tokens) :
      HasTokens (digits ++ rest) (.number (Nat.ofDigitChars 10 digits 0) :: tokens)
  | word {letters rest : List Char} {tokens : List Token} (hSome : letters ≠ [])
      (hLetters : ∀ c ∈ letters, Text.isAlphanumeric c = true ∧ c.isDigit = false)
      (hEnd : ∀ c ∈ rest.head?, ¬ (Text.isAlphanumeric c = true ∧ c.isDigit = false))
      (hRest : HasTokens rest tokens) :
      HasTokens (letters ++ rest)
        (.word (Utf8.encode (String.ofList (letters.map Char.toLower))) :: tokens)

instance : Std.TransCmp Token.compare where
  eq_swap {a b} := by
    match a, b with
    | .number _, .number _ => exact Std.OrientedOrd.eq_swap
    | .word _, .word _ => exact Std.OrientedOrd.eq_swap
    | .number _, .word _ => rfl
    | .word _, .number _ => rfl
  isLE_trans {a b c} hab hbc := by
    match a, b, c with
    | .number _, .number _, .number _ => exact Std.TransOrd.isLE_trans hab hbc
    | .word _, .word _, .word _ => exact Std.TransOrd.isLE_trans hab hbc
    | .word _, _, .number _ => rfl
    | .number _, .word _, _ => cases hab
    | _, .number _, .word _ => cases hbc

/-! ## Values of digits -/

section Digits

variable {as bs : List Char}

/-- The first digit counts as often as the digits behind it can have values. -/
theorem ofDigitChars_cons_zero (c : Char) (cs : List Char) :
    Nat.ofDigitChars 10 (c :: cs) 0 =
      10 ^ cs.length * (c.toNat - '0'.toNat) + Nat.ofDigitChars 10 cs 0 := by
  rw [Nat.ofDigitChars_cons, Nat.ofDigitChars_eq_ofDigitChars_zero, Nat.mul_zero, Nat.zero_add]

/-- Digits write a number below the power of ten that their count says. -/
theorem ofDigitChars_lt (hDigits : ∀ c ∈ as, c.isDigit = true) :
    Nat.ofDigitChars 10 as 0 < 10 ^ as.length := by
  induction as with
  | nil => decide
  | cons c cs ih =>
    obtain ⟨hDigit, hRest⟩ := List.forall_mem_cons.1 hDigits
    have hNine : c.toNat - '0'.toNat ≤ 9 := Nat.sub_le_of_le_add (Char.isDigit_iff_toNat.1 hDigit).2
    calc Nat.ofDigitChars 10 (c :: cs) 0
        = 10 ^ cs.length * (c.toNat - '0'.toNat) + Nat.ofDigitChars 10 cs 0 :=
          ofDigitChars_cons_zero c cs
      _ < 10 ^ cs.length * 9 + 10 ^ cs.length :=
          Nat.add_lt_add_of_le_of_lt (Nat.mul_le_mul_left _ hNine) (ih hRest)
      _ = 10 ^ (c :: cs).length := by rw [List.length_cons, Nat.pow_succ]; omega

/-- Without a leading zero a number is as large as its length says. -/
theorem pow_le_ofDigitChars {c : Char} {cs : List Char} (hDigit : c.isDigit = true)
    (hLead : c ≠ '0') : 10 ^ cs.length ≤ Nat.ofDigitChars 10 (c :: cs) 0 := by
  have hSome : 0 < c.toNat - '0'.toNat := by
    have hZero : '0'.toNat ≠ c.toNat := fun hSame => hLead (Char.toNat_inj.1 hSame.symm)
    exact Nat.sub_pos_of_lt (Nat.lt_of_le_of_ne (Char.isDigit_iff_toNat.1 hDigit).1 hZero)
  rw [ofDigitChars_cons_zero]
  exact Nat.le_add_right_of_le (Nat.le_mul_of_pos_right _ hSome)

/-- The longer number is the greater one. -/
theorem ofDigitChars_lt_of_length_lt (has : ∀ c ∈ as, c.isDigit = true)
    (hbs : ∀ c ∈ bs, c.isDigit = true) (hLead : bs.head? ≠ some '0')
    (hLength : as.length < bs.length) : Nat.ofDigitChars 10 as 0 < Nat.ofDigitChars 10 bs 0 := by
  match bs with
  | c :: cs =>
    have hFirst : c ≠ '0' := fun hZero => hLead (congrArg some hZero)
    calc Nat.ofDigitChars 10 as 0
        < 10 ^ as.length := ofDigitChars_lt has
      _ ≤ 10 ^ cs.length := Nat.pow_le_pow_right (by decide) (Nat.le_of_lt_succ hLength)
      _ ≤ Nat.ofDigitChars 10 (c :: cs) 0 :=
          pow_le_ofDigitChars (hbs c List.mem_cons_self) hFirst

/-- Of two numbers of one length the one with the lower first digit is the lower: the digits behind
    it cannot make up for it. -/
theorem ofDigitChars_lt_of_lt {c d : Char} {cs ds : List Char} (hDigit : c.isDigit = true)
    (hcs : ∀ b ∈ cs, b.isDigit = true) (hLength : cs.length = ds.length) (hLower : c < d) :
    Nat.ofDigitChars 10 (c :: cs) 0 < Nat.ofDigitChars 10 (d :: ds) 0 := by
  have hNext : c.toNat - '0'.toNat + 1 ≤ d.toNat - '0'.toNat := by
    have hZero := (Char.isDigit_iff_toNat.1 hDigit).1
    have hCode : c.toNat < d.toNat := hLower
    omega
  calc Nat.ofDigitChars 10 (c :: cs) 0
      = 10 ^ cs.length * (c.toNat - '0'.toNat) + Nat.ofDigitChars 10 cs 0 :=
        ofDigitChars_cons_zero c cs
    _ < 10 ^ cs.length * (c.toNat - '0'.toNat) + 10 ^ cs.length :=
        Nat.add_lt_add_left (ofDigitChars_lt hcs) _
    _ = 10 ^ cs.length * (c.toNat - '0'.toNat + 1) := by rw [Nat.mul_succ]
    _ ≤ 10 ^ ds.length * (d.toNat - '0'.toNat) := by
        rw [hLength]
        exact Nat.mul_le_mul_left _ hNext
    _ ≤ Nat.ofDigitChars 10 (d :: ds) 0 := by
        rw [ofDigitChars_cons_zero]
        exact Nat.le_add_right _ _

/-- Numbers of one length compare digit by digit. -/
theorem compare_ofDigitChars_of_length_eq (has : ∀ c ∈ as, c.isDigit = true)
    (hbs : ∀ c ∈ bs, c.isDigit = true) (hLength : as.length = bs.length) :
    Ord.compare (Nat.ofDigitChars 10 as 0) (Nat.ofDigitChars 10 bs 0) = Ord.compare as bs := by
  induction as generalizing bs with
  | nil => rw [List.eq_nil_of_length_eq_zero hLength.symm, Std.compare_self, Std.compare_self]
  | cons c cs ih =>
    match bs with
    | d :: ds =>
      obtain ⟨hc, hcs⟩ := List.forall_mem_cons.1 has
      obtain ⟨hd, hds⟩ := List.forall_mem_cons.1 hbs
      have hRest : cs.length = ds.length := Nat.succ.inj hLength
      rw [List.compare_cons_cons]
      rcases lt_trichotomy c d with hLower | rfl | hHigher
      · rw [Nat.compare_eq_lt.2 (ofDigitChars_lt_of_lt hc hcs hRest hLower),
          compare_lt_iff_lt.2 hLower, Ordering.lt_then]
      · rw [ofDigitChars_cons_zero, ofDigitChars_cons_zero, hRest, Std.compare_self,
          Ordering.eq_then, ← ih hcs hds hRest]
        simp only [Nat.compare_eq_ite_lt, Nat.add_lt_add_iff_left]
      · rw [Nat.compare_eq_gt.2 (ofDigitChars_lt_of_lt hd hds hRest.symm hHigher),
          compare_gt_iff_gt.2 hHigher, Ordering.gt_then]

/-- **Numbers compare by their length first, and by their digits then.** -/
theorem compare_ofDigitChars (has : ∀ c ∈ as, c.isDigit = true)
    (hbs : ∀ c ∈ bs, c.isDigit = true) (hLeadA : as.head? ≠ some '0')
    (hLeadB : bs.head? ≠ some '0') :
    Ord.compare (Nat.ofDigitChars 10 as 0) (Nat.ofDigitChars 10 bs 0) =
      (Ord.compare as.length bs.length).then (Ord.compare as bs) := by
  rcases Nat.lt_trichotomy as.length bs.length with hShorter | hSame | hLonger
  · rw [Nat.compare_eq_lt.2 hShorter, Ordering.lt_then,
      Nat.compare_eq_lt.2 (ofDigitChars_lt_of_length_lt has hbs hLeadB hShorter)]
  · rw [Nat.compare_eq_eq.2 hSame, Ordering.eq_then,
      compare_ofDigitChars_of_length_eq has hbs hSame]
  · rw [Nat.compare_eq_gt.2 hLonger, Ordering.gt_then,
      Nat.compare_eq_gt.2 (ofDigitChars_lt_of_length_lt hbs has hLeadA hLonger)]

/-- Leading zeros are worth nothing. -/
theorem ofDigitChars_dropWhile (digits : List Char) :
    Nat.ofDigitChars 10 (digits.dropWhile (· = '0')) 0 = Nat.ofDigitChars 10 digits 0 := by
  induction digits with
  | nil => rfl
  | cons c cs ih =>
    by_cases hZero : c = '0'
    · rw [List.dropWhile_cons_of_pos (by simpa using hZero), ih, ofDigitChars_cons_zero, hZero]
      simp
    · rw [List.dropWhile_cons_of_neg (by simpa using hZero)]

/-- Without its leading zeros a run of digits does not begin with a zero. -/
theorem head?_dropWhile_ne (digits : List Char) :
    (digits.dropWhile (· = '0')).head? ≠ some '0' := by
  intro hZero
  have hStop := List.head?_dropWhile_not (· = '0') digits
  rw [hZero] at hStop
  exact absurd hStop (by decide)

end Digits

/-! ## The tokens of a text -/

/-- What a text begins with of one kind, and the rest. -/
theorem exists_span (p : Char → Bool) (characters : List Char) :
    ∃ run rest, characters = run ++ rest ∧ (∀ c ∈ run, p c = true) ∧
      (∀ c ∈ rest.head?, p c = false) ∧ rest.length ≤ characters.length := by
  refine ⟨characters.takeWhile p, characters.dropWhile p, ?_, ?_, ?_,
    List.length_dropWhile_le p characters⟩
  · rw [List.takeWhile_append_dropWhile]
  · exact fun c hMem => List.mem_takeWhile_imp hMem
  · intro c hHead
    have hStop := List.head?_dropWhile_not p characters
    rwa [hHead] at hStop

/-- Every text has tokens. -/
theorem exists_hasTokens (characters : List Char) : ∃ tokens, HasTokens characters tokens := by
  match characters with
  | [] => exact ⟨[], .nil⟩
  | first :: others =>
    by_cases hDigit : first.isDigit = true
    · obtain ⟨digits, rest, hSplit, hDigits, hEnd, hShort⟩ := exists_span Char.isDigit others
      obtain ⟨tokens, hRest⟩ := exists_hasTokens rest
      rw [hSplit]
      exact ⟨_, .number (List.cons_ne_nil first digits)
        (List.forall_mem_cons.2 ⟨hDigit, hDigits⟩) hEnd hRest⟩
    · by_cases hLetter : Text.isAlphanumeric first = true
      · obtain ⟨letters, rest, hSplit, hLetters, hEnd, hShort⟩ :=
          exists_span (fun c => Text.isAlphanumeric c && !c.isDigit) others
        obtain ⟨tokens, hRest⟩ := exists_hasTokens rest
        rw [hSplit]
        exact ⟨_, .word (List.cons_ne_nil first letters)
          (List.forall_mem_cons.2 ⟨by simp [hLetter, hDigit], by simpa using hLetters⟩)
          (by simpa using hEnd) hRest⟩
      · obtain ⟨tokens, hRest⟩ := exists_hasTokens others
        exact ⟨tokens, .separator (by simpa using hLetter) hRest⟩
termination_by characters.length
decreasing_by all_goals simp only [List.length_cons]; omega

/-! ## Runs stand for tokens -/

/-- What a run stands for: its digits make the number, its letters are those of the word. -/
def Run.Spells : Run → Token → Prop
  | .number digits, .number value =>
    (∀ c ∈ digits, c.isDigit = true) ∧ digits.head? ≠ some '0' ∧
      Nat.ofDigitChars 10 digits 0 = value
  | .word letters, .word bytes => Utf8.encode (String.ofList letters) = bytes
  | _, _ => False

/-- A run spells one token. -/
theorem Run.rightUnique_spells : Relator.RightUnique Run.Spells := by
  intro run first second hFirst hSecond
  match run, first, second with
  | .number _, .number _, .number _ => rw [← hFirst.2.2, ← hSecond.2.2]
  | .word _, .word _, .word _ => rw [← hFirst, ← hSecond]

/-- **Runs compare as what they stand for.** -/
theorem Run.Spells.compare_eq {r s : Run} {t u : Token} (hFirst : r.Spells t)
    (hSecond : s.Spells u) : r.compare s = t.compare u := by
  match r, s, t, u with
  | .number _, .number _, .number _, .number _ =>
    obtain ⟨hDigits, hLead, rfl⟩ := hFirst
    obtain ⟨hOthers, hOtherLead, rfl⟩ := hSecond
    exact (compare_ofDigitChars hDigits hOthers hLead hOtherLead).symm
  | .word _, .word _, .word _, .word _ =>
    cases hFirst
    cases hSecond
    exact (Utf8.compare_encode_ofList _ _).symm
  | .word _, .number _, .word _, .number _ => rfl
  | .number _, .word _, .number _, .word _ => rfl

/-- Comparing runs is comparing the tokens that they spell. -/
theorem compareLex_of_spells {rs ss : List Run} {ts us : List Token}
    (hFirst : List.Forall₂ Run.Spells rs ts) (hSecond : List.Forall₂ Run.Spells ss us) :
    List.compareLex Run.compare rs ss = List.compareLex Token.compare ts us := by
  induction hFirst generalizing ss us with
  | nil =>
    cases hSecond with
    | nil => rfl
    | cons _ _ => rfl
  | cons hRun _ ih =>
    cases hSecond with
    | nil => rfl
    | cons hOther hOthers =>
      rw [List.compareLex_cons_cons, List.compareLex_cons_cons, hRun.compare_eq hOther, ih hOthers]

/-! ### The runs of a text -/

theorem Part.ofChar_eq_digit_iff {c : Char} : Part.ofChar c = .digit ↔ c.isDigit = true := by
  rw [Part.ofChar]
  split_ifs <;> simp_all

theorem Part.ofChar_eq_letter_iff {c : Char} :
    Part.ofChar c = .letter ↔ Text.isAlphanumeric c = true ∧ c.isDigit = false := by
  rw [Part.ofChar]
  split_ifs <;> simp_all

theorem Part.ofChar_of_separator {c : Char} (hSeparator : Text.isAlphanumeric c = false) :
    Part.ofChar c = .separator := by
  have hDigit : ¬ c.isDigit = true := by
    intro hDigit
    rw [Text.isAlphanumeric_of_isDigit hDigit] at hSeparator
    cases hSeparator
  rw [Part.ofChar, if_neg hDigit, if_neg (by simp [hSeparator])]

/-- The runs of these characters. -/
def runsIn (characters : List Char) : List Run :=
  (characters.splitBy fun a b => Part.ofChar a = Part.ofChar b).filterMap Run.ofGroup?

/-- A group that cannot be made longer is read by itself. -/
theorem runsIn_append {part : Part} {group rest : List Char} (hSome : group ≠ [])
    (hPart : ∀ c ∈ group, Part.ofChar c = part) (hEnd : ∀ c ∈ rest.head?, Part.ofChar c ≠ part) :
    runsIn (group ++ rest) = (Run.ofGroup? group).toList ++ runsIn rest := by
  have hChain : group.IsChain fun a b => decide (Part.ofChar a = Part.ofChar b) = true :=
    List.Pairwise.isChain <| List.pairwise_of_forall_mem_list fun a ha b hb =>
      decide_eq_true ((hPart a ha).trans (hPart b hb).symm)
  rw [runsIn, List.splitBy_append, List.splitBy_of_isChain hSome hChain, List.filterMap_append,
    runsIn, List.filterMap_cons, List.filterMap_nil]
  · cases Run.ofGroup? group <;> rfl
  · intro last hLast next hNext
    have hOwn := hPart last (List.mem_of_getLast? hLast)
    exact decide_eq_false (hOwn ▸ (hEnd next hNext).symm)

/-- What a group of characters of one kind is read as. -/
theorem ofGroup?_eq {part : Part} {group : List Char} (hSome : group ≠ [])
    (hPart : ∀ c ∈ group, Part.ofChar c = part) :
    Run.ofGroup? group =
      match part with
      | .digit => some (.number (group.dropWhile (· = '0')))
      | .letter => some (.word (group.map Char.toLower))
      | .separator => none := by
  rw [Run.ofGroup?, List.head?_eq_some_head hSome, Option.map_some, hPart _ (List.head_mem hSome)]
  cases part <;> rfl

/-- A separator is not in a run, whether the next character is one too or not. -/
theorem runsIn_separator {c : Char} {rest : List Char} (hSeparator : Part.ofChar c = .separator) :
    runsIn (c :: rest) = runsIn rest := by
  obtain ⟨group, behind, rfl, hGroup, hEnd, -⟩ :=
    exists_span (fun d => Part.ofChar d = .separator) rest
  have hBehind : ∀ d ∈ behind.head?, Part.ofChar d ≠ .separator := by simpa using hEnd
  -- All separators up to the next run are one group, with `c` or without.
  have hSkip : ∀ separators : List Char, separators ≠ [] →
      (∀ d ∈ separators, Part.ofChar d = .separator) →
        runsIn (separators ++ behind) = runsIn behind := by
    intro separators hSome hAll
    rw [runsIn_append hSome hAll hBehind, ofGroup?_eq hSome hAll]
    rfl
  have hAll : ∀ d ∈ c :: group, Part.ofChar d = .separator :=
    List.forall_mem_cons.2 ⟨hSeparator, by simpa using hGroup⟩
  rw [← List.cons_append, hSkip (c :: group) (List.cons_ne_nil c group) hAll]
  cases group with
  | nil => rfl
  | cons d ds =>
    exact (hSkip (d :: ds) (List.cons_ne_nil d ds) (List.forall_mem_cons.1 hAll).2).symm

/-- **The runs of a text stand for its tokens.** -/
theorem spells_runsIn {characters : List Char} {tokens : List Token}
    (hTokens : HasTokens characters tokens) :
    List.Forall₂ Run.Spells (runsIn characters) tokens := by
  -- On how the text falls into tokens; each run ends where its token does, which is what `hEnd`
  -- says.
  induction hTokens with
  | nil => exact .nil
  | separator hSeparator _ ih =>
    rw [runsIn_separator (Part.ofChar_of_separator hSeparator)]
    exact ih
  | @number digits rest tokens hSome hDigits hEnd _ ih =>
    have hPart : ∀ c ∈ digits, Part.ofChar c = .digit := fun c hMem =>
      Part.ofChar_eq_digit_iff.2 (hDigits c hMem)
    rw [runsIn_append hSome hPart ?_, ofGroup?_eq hSome hPart]
    · refine .cons ⟨?_, head?_dropWhile_ne digits, ofDigitChars_dropWhile digits⟩ ih
      exact fun c hMem => hDigits c ((List.dropWhile_sublist _).mem hMem)
    · intro c hHead hDigit
      rw [Part.ofChar_eq_digit_iff, hEnd c hHead] at hDigit
      cases hDigit
  | @word letters rest tokens hSome hLetters hEnd _ ih =>
    have hPart : ∀ c ∈ letters, Part.ofChar c = .letter := fun c hMem =>
      Part.ofChar_eq_letter_iff.2 (hLetters c hMem)
    rw [runsIn_append hSome hPart ?_, ofGroup?_eq hSome hPart]
    · exact .cons rfl ih
    · exact fun c hHead hLetter => hEnd c hHead (Part.ofChar_eq_letter_iff.1 hLetter)

/-! ## The order -/

/-- A text has one list of tokens. -/
theorem hasTokens_iff {characters : List Char} {tokens : List Token}
    (hTokens : HasTokens characters tokens) (others : List Token) :
    HasTokens characters others ↔ others = tokens := by
  constructor
  · intro hOthers
    exact List.right_unique_forall₂' Run.rightUnique_spells (spells_runsIn hOthers)
      (spells_runsIn hTokens)
  · rintro rfl
    exact hTokens

/-- So the order of versions is the lexicographic order of their tokens. -/
theorem compare_eq_compareLex {a b : String} {as bs : List Token} (ha : HasTokens a.toList as)
    (hb : HasTokens b.toList bs) : compare a b = List.compareLex Token.compare as bs :=
  compareLex_of_spells (spells_runsIn ha) (spells_runsIn hb)

instance : Std.TransCmp compare where
  eq_swap {a b} := by
    obtain ⟨as, ha⟩ := exists_hasTokens a.toList
    obtain ⟨bs, hb⟩ := exists_hasTokens b.toList
    rw [compare_eq_compareLex ha hb, compare_eq_compareLex hb ha]
    exact Std.OrientedCmp.eq_swap
  isLE_trans {a b c} hab hbc := by
    obtain ⟨as, ha⟩ := exists_hasTokens a.toList
    obtain ⟨bs, hb⟩ := exists_hasTokens b.toList
    obtain ⟨cs, hc⟩ := exists_hasTokens c.toList
    rw [compare_eq_compareLex ha hb] at hab
    rw [compare_eq_compareLex hb hc] at hbc
    rw [compare_eq_compareLex ha hc]
    exact Std.TransCmp.isLE_trans hab hbc

/-- **Versions compare lexicographically by their tokens**, of which each text has one list; and so
    their order is a total preorder. -/
theorem compare_lexicographic (a b : String) :
    (∃ as bs, (∀ tokens, HasTokens a.toList tokens ↔ tokens = as) ∧
      (∀ tokens, HasTokens b.toList tokens ↔ tokens = bs) ∧
      compare a b = List.compareLex Token.compare as bs) ∧
    compare a a = .eq ∧
    compare b a = (compare a b).swap ∧
    ∀ c, (compare a b).isLE = true → (compare b c).isLE = true → (compare a c).isLE = true := by
  obtain ⟨as, ha⟩ := exists_hasTokens a.toList
  obtain ⟨bs, hb⟩ := exists_hasTokens b.toList
  exact ⟨⟨as, bs, hasTokens_iff ha, hasTokens_iff hb, compare_eq_compareLex ha hb⟩,
    Std.ReflCmp.compare_self, Std.OrientedCmp.eq_swap, fun _ => Std.TransCmp.isLE_trans⟩

example : compare "2.0.beta" "2.0.0" = .lt ∧ compare "2.0" "2.0.0" = .lt ∧
    compare "1.10" "1.9" = .gt ∧ compare "v01-RC" "V1.rc" = .eq := by decide

end Lineage.Version
