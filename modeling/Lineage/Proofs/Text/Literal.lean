/-
  What the console makes of a literal between double quotes.

  `escape` writes a text and the console reads it, by rules of its own.  Two of these do not fit
  what is written.  A `#` with a brace, or with the name of a variable, behind it starts an
  INTERPOLATION, which runs code; `escape` leaves every `#` as it is.  An octal escape takes up to
  three digits; NUL is written with one, so it takes up to two digits of the text behind it.

  Nothing else goes wrong.  A text without an interpolation reads as `standsFor` says
  (`readLiteral_flatMap_escape`), and that is the text itself unless a NUL takes a digit
  (`standsFor_eq_self_iff`).
-/
import Mathlib.Algebra.Group.Nat.Defs
import Mathlib.Data.List.Infix
import Mathlib.Data.List.TakeWhile
import Lineage.Text.Quoted

namespace Lineage.Text

/-! ## The rules of the console -/

/-- Why a literal has no text for its value. -/
inductive LiteralFault where
  /-- Code is to be run, and its result put in. -/
  | interpolation
  /-- It is no literal, or has an escape that is not among those below. -/
  | malformed
  deriving DecidableEq, Repr

/-- May a name start with this character? -/
def startsName (c : Char) : Bool := c.isAlpha || c = '_' || 128 ≤ c.toNat

/-- The characters that name a global variable by themselves. -/
def globalMarks : List Char :=
  ['~', '*', '$', '?', '!', '@', '/', '\\', ';', ',', '.', '=', ':', '<', '>', '"', '&', '\x60',
    '\x27', '+']

/-- Does a name start here, or behind this mark? -/
def nameFollows (mark : Char) : List Char → Bool
  | [] => false
  | c :: rest => startsName c || c = mark && rest.head?.any startsName

/-- Does this name a global variable by itself? -/
def namesGlobal (c : Char) : Bool := c.isDigit || globalMarks.contains c

/-- Does an interpolation start, if this stands behind a `#`? -/
def opensInterpolation : List Char → Bool
  | [] => false
  | c :: rest =>
    c = '\x7b' || c = '$' && (nameFollows '-' rest || rest.head?.any namesGlobal) ||
      c = '@' && nameFollows '@' rest

/-- One of the digits that an octal escape is made of. -/
def isOctalDigit (c : Char) : Bool := '0' ≤ c && c ≤ '7'

/-- Takes up to so many octal digits, behind those that gave a value already. -/
def takeOctal : Nat → Nat → List Char → Nat × List Char
  | n + 1, value, c :: rest =>
    if isOctalDigit c then takeOctal n (8 * value + (c.toNat - 48)) rest else (value, c :: rest)
  | _, value, input => (value, input)

/-- The value of a hexadecimal digit. -/
def hexDigit? (c : Char) : Option Nat :=
  if '0' ≤ c && c ≤ '9' then some (c.toNat - 48)
  else if 'a' ≤ c && c ≤ 'f' then some (c.toNat - 87)
  else if 'A' ≤ c && c ≤ 'F' then some (c.toNat - 55)
  else none

/-- One of the digits that the number of a code point is made of. -/
def isHexDigit (c : Char) : Bool := (hexDigit? c).isSome

/-- The number that some hexadecimal digits write. -/
def hexValue (digits : List Char) : Nat :=
  digits.foldl (fun n c => 16 * n + (hexDigit? c).getD 0) 0

/-- One to six hexadecimal digits and a closing brace. -/
def readCodePoint (input : List Char) : Except LiteralFault (Char × List Char) :=
  let digits := input.takeWhile isHexDigit
  match input.dropWhile isHexDigit with
  | '\x7d' :: rest =>
    if 1 ≤ digits.length ∧ digits.length ≤ 6 ∧ (hexValue digits).isValidChar then
      .ok (Char.ofNat (hexValue digits), rest)
    else .error .malformed
  | _ => .error .malformed

/-- The character that a backslash escapes, and the input behind it.  An octal value from 128 on is
    a byte and no character.  What is no letter, digit or line end stands for itself, `#` among
    them. -/
def readEscape : List Char → Except LiteralFault (Char × List Char)
  | 'n' :: rest => .ok ('\n', rest)
  | 'r' :: rest => .ok ('\r', rest)
  | 't' :: rest => .ok ('\t', rest)
  | 'u' :: '\x7b' :: rest => readCodePoint rest
  | [] => .error .malformed
  | c :: rest =>
    if isOctalDigit c then
      let (value, rest) := takeOctal 2 (c.toNat - 48) rest
      if value < 128 then .ok (Char.ofNat value, rest) else .error .malformed
    else if c.isAlphanum || c = '\n' then .error .malformed
    else .ok (c, rest)

theorem length_takeOctal_le (n value : Nat) (input : List Char) :
    (takeOctal n value input).2.length ≤ input.length := by
  fun_induction takeOctal n value input with
  | case1 n value c rest hDigit ih => exact Nat.le_succ_of_le ih
  | case2 => exact Nat.le_refl _
  | case3 => exact Nat.le_refl _

/-- Where there is an octal digit at least one is taken. -/
theorem length_takeOctal_lt (n value : Nat) {input : List Char}
    (hTakes : input.head?.any isOctalDigit) :
    (takeOctal (n + 1) value input).2.length < input.length := by
  cases input with
  | nil => simp at hTakes
  | cons c rest =>
    have hDigit : isOctalDigit c := hTakes
    simpa [takeOctal, hDigit] using Nat.lt_succ_of_le (length_takeOctal_le n _ rest)

/-- Where there is none nothing is taken. -/
theorem takeOctal_of_not (n value : Nat) {input : List Char}
    (hTakes : ¬ input.head?.any isOctalDigit) : takeOctal n value input = (value, input) := by
  cases n with
  | zero => simp [takeOctal]
  | succ n =>
    cases input with
    | nil => simp [takeOctal]
    | cons c rest =>
      have hDigit : ¬ isOctalDigit c := hTakes
      simp [takeOctal, hDigit]

/-- A code point takes characters away, the closing bracket at least. -/
theorem length_lt_of_readCodePoint {input rest : List Char} {c : Char}
    (h : readCodePoint input = .ok (c, rest)) : rest.length < input.length := by
  have hLength := input.length_dropWhile_le isHexDigit
  simp only [readCodePoint] at h
  split at h
  next hBehind =>
    split at h
    · cases h
      simp only [hBehind, List.length_cons] at hLength
      omega
    · cases h
  · cases h

/-- An escape takes characters away, so reading a literal ends. -/
theorem length_lt_of_readEscape {input rest : List Char} {c : Char}
    (h : readEscape input = .ok (c, rest)) : rest.length < input.length := by
  unfold readEscape at h
  -- One case for each kind of escape; only an octal one can take a variable number of digits.
  split at h
  case h_1 | h_2 | h_3 =>
    cases h
    exact Nat.lt_succ_self _
  case h_4 => exact (length_lt_of_readCodePoint h).trans_le (Nat.le_add_right _ 2)
  case h_5 => cases h
  case h_6 first behind _ _ _ _ =>
    have hLength := length_takeOctal_le 2 (first.toNat - 48) behind
    rw [List.length_cons, Nat.lt_succ_iff]
    split at h
    · simp only at h
      split at h
      · cases h
        exact hLength
      · cases h
    · split at h
      · cases h
      · cases h
        exact Nat.le_refl _

/-- Puts a character before what is read. -/
def prepend (c : Char) (result : Except LiteralFault (List Char × List Char)) :
    Except LiteralFault (List Char × List Char) :=
  result.map fun (text, rest) => (c :: text, rest)

/-- The text up to the closing quote, and the input behind the quote. -/
def readLiteral : List Char → Except LiteralFault (List Char × List Char)
  | [] => .error .malformed
  | '"' :: rest => .ok ([], rest)
  | '\\' :: input =>
    match _hEscape : readEscape input with
    | .error fault => .error fault
    | .ok (c, rest) => prepend c (readLiteral rest)
  | c :: rest =>
    if c = '#' && opensInterpolation rest then .error .interpolation
    else prepend c (readLiteral rest)
termination_by input => input.length
decreasing_by
  · have := length_lt_of_readEscape _hEscape
    simp only [List.length_cons]
    omega
  · simp

/-- A literal that is read with a character in front is read without it. -/
theorem eq_ok_of_prepend {c : Char} {result : Except LiteralFault (List Char × List Char)}
    {text rest : List Char} (h : prepend c result = .ok (text, rest)) :
    ∃ behind, result = .ok (behind, rest) := by
  cases result with
  | error fault => cases h
  | ok read =>
    obtain ⟨behind, rest'⟩ := read
    cases h
    exact ⟨behind, rfl⟩

/-- A literal takes characters away, its closing quote at least. -/
theorem length_lt_of_readLiteral {input text rest : List Char}
    (h : readLiteral input = .ok (text, rest)) : rest.length < input.length := by
  fun_induction readLiteral input generalizing text with
  | case1 => cases h
  | case2 behind =>
    cases h
    simp
  | case3 => cases h
  | case4 input c behind hEscape ih =>
    obtain ⟨text, hText⟩ := eq_ok_of_prepend h
    have := length_lt_of_readEscape hEscape
    exact (ih hText).trans (this.trans (by simp))
  | case5 => cases h
  | case6 c behind _ _ _ ih =>
    obtain ⟨text, hText⟩ := eq_ok_of_prepend h
    exact (ih hText).trans (by simp)

/-- Behind a backslash an escape is read. -/
theorem readLiteral_backslash {input rest : List Char} {c : Char}
    (h : readEscape input = .ok (c, rest)) :
    readLiteral ('\\' :: input) = prepend c (readLiteral rest) := by
  rw [readLiteral]
  split
  next fault hFault => simp [h] at hFault
  next c' rest' hRead =>
    rw [h] at hRead
    cases hRead
    rfl

theorem readLiteral_plain {c : Char} (hQuote : c ≠ '"') (hBackslash : c ≠ '\\') (hHash : c ≠ '#')
    (rest : List Char) : readLiteral (c :: rest) = prepend c (readLiteral rest) := by
  rw [readLiteral]
  · simp [hHash]
  · exact hQuote
  · exact hBackslash

/-- A `#` stands for itself unless it opens an interpolation. -/
theorem readLiteral_hash (rest : List Char) :
    readLiteral ('#' :: rest) =
      if opensInterpolation rest then .error .interpolation
      else prepend '#' (readLiteral rest) := by
  rw [readLiteral]
  · simp
  · decide
  · decide

/-! ## How code points are written -/

theorem hexDigit?_digitChar : ∀ d < 16, hexDigit? d.digitChar = some d := by decide

theorem hexValue_concat (digits : List Char) (c : Char) :
    hexValue (digits ++ [c]) = 16 * hexValue digits + (hexDigit? c).getD 0 := by
  simp [hexValue]

/-- Hexadecimal digits are read back. -/
theorem hexValue_toDigits (n : Nat) :
    hexValue (Nat.toDigits 16 n) = n ∧ ∀ c ∈ Nat.toDigits 16 n, isHexDigit c := by
  -- on the number without its last digit
  induction n using Nat.strong_induction_on with
  | _ n ih =>
    rw [Nat.toDigits_eq_if (by decide)]
    split
    next hSmall => simp [hexValue, isHexDigit, hexDigit?_digitChar n hSmall]
    next hLarge =>
      obtain ⟨hValue, hDigits⟩ := ih (n / 16) (by omega)
      have hLast := hexDigit?_digitChar (n % 16) (Nat.mod_lt n (by decide))
      constructor
      · rw [hexValue_concat, hValue, hLast, Option.getD_some]
        omega
      · intro c hc
        rcases List.mem_append.1 hc with hc | hc
        · exact hDigits c hc
        · rw [List.mem_singleton.1 hc, isHexDigit, hLast]
          rfl

/-- The number of a character is read as that character. -/
theorem readCodePoint_toDigits (c : Char) (rest : List Char) :
    readCodePoint (Nat.toDigits 16 c.toNat ++ '\x7d' :: rest) = .ok (c, rest) := by
  obtain ⟨hValue, hDigits⟩ := hexValue_toDigits c.toNat
  have hValid : c.toNat.isValidChar := c.valid
  have hSix : (Nat.toDigits 16 c.toNat).length ≤ 6 :=
    (Nat.length_toDigits_le_iff (by decide) (by decide)).2 (by
      simp only [Nat.isValidChar] at hValid
      omega)
  have hTaken : (Nat.toDigits 16 c.toNat ++ '\x7d' :: rest).takeWhile isHexDigit =
      Nat.toDigits 16 c.toNat := by
    rw [List.takeWhile_append_of_pos hDigits, List.takeWhile_cons_of_neg (by decide),
      List.append_nil]
  have hLeft : (Nat.toDigits 16 c.toNat ++ '\x7d' :: rest).dropWhile isHexDigit =
      '\x7d' :: rest := by
    rw [List.dropWhile_append_of_pos hDigits, List.dropWhile_cons_of_neg (by decide)]
  simp only [readCodePoint, hTaken, hLeft, hValue, Char.ofNat_toNat]
  rw [if_pos ⟨Nat.length_toDigits_pos, hSix, hValid⟩]

/-! ## How one character is read -/

/-- A character is written as it is, or with a backslash before it. -/
theorem escape_eq_or (c : Char) :
    (escape c = [c] ∧ c ≠ '"' ∧ c ≠ '\\') ∨ ∃ behind, escape c = '\\' :: behind := by
  unfold escape
  split_ifs <;> simp_all

/-- All but `#` and NUL are read back, whatever follows. -/
theorem readLiteral_escape {c : Char} (hHash : c ≠ '#') (hNul : c ≠ '\x00') (rest : List Char) :
    readLiteral (escape c ++ rest) = prepend c (readLiteral rest) := by
  obtain ⟨hSame, hQuote, hBackslash⟩ | ⟨behind, hEscaped⟩ := escape_eq_or c
  · rw [hSame, List.singleton_append, readLiteral_plain hQuote hBackslash hHash]
  · rw [hEscaped, List.cons_append]
    -- which escape it is decides what is read behind the backslash
    refine readLiteral_backslash ?_
    unfold escape at hEscaped
    split_ifs at hEscaped with h1 h2 h3 h4 h5 h6
    · exact absurd h1 hNul
    · cases hEscaped
      simp [readEscape, h2]
    · cases hEscaped
      simp [readEscape, h3]
    · cases hEscaped
      simp [readEscape, h4]
    · cases hEscaped
      rcases h5 with rfl | rfl <;> rfl
    · cases hEscaped
      simpa [readEscape] using readCodePoint_toDigits c rest
    · cases hEscaped
      simp at h5

theorem toNat_of_isOctalDigit {c : Char} (hDigit : isOctalDigit c) :
    48 ≤ c.toNat ∧ c.toNat ≤ 55 := by
  simpa [isOctalDigit, Char.le_def, UInt32.le_iff_toNat_le] using hDigit

theorem escape_of_isOctalDigit {c : Char} (hDigit : isOctalDigit c) : escape c = [c] := by
  have hAll : ∀ n < 56, 48 ≤ n → escape (Char.ofNat n) = [Char.ofNat n] := by decide
  obtain ⟨hLow, hHigh⟩ := toNat_of_isOctalDigit hDigit
  simpa using hAll c.toNat (by omega) hLow

/-- Only an octal digit is written with an octal digit at its start. -/
theorem takeOctal_escape (n value : Nat) (c : Char) (rest : List Char) :
    takeOctal (n + 1) value (escape c ++ rest) =
      if isOctalDigit c then takeOctal n (8 * value + (c.toNat - 48)) rest
      else (value, escape c ++ rest) := by
  by_cases hDigit : isOctalDigit c
  · simp [escape_of_isOctalDigit hDigit, takeOctal, hDigit]
  · obtain ⟨hSame, -⟩ | ⟨behind, hEscaped⟩ := escape_eq_or c
    · simp [hSame, takeOctal, hDigit]
    · simp [hEscaped, takeOctal, hDigit, show isOctalDigit '\\' = false by decide]

/-! ## How a text is read -/

/-- What a NUL takes of the digits behind it is the same before and after they are written. -/
theorem takeOctal_flatMap_escape (n value : Nat) (text rest : List Char) :
    takeOctal n value (text.flatMap escape ++ '"' :: rest) =
      ((takeOctal n value text).1, (takeOctal n value text).2.flatMap escape ++ '"' :: rest) := by
  induction n generalizing value text with
  | zero => simp [takeOctal]
  | succ n ih =>
    cases text with
    | nil => simp [takeOctal, show isOctalDigit '"' = false by decide]
    | cons c text =>
      rw [List.flatMap_cons, List.append_assoc, takeOctal_escape, takeOctal]
      split
      · rw [ih]
      · simp

/-- Each digit that is taken multiplies the number by eight at most. -/
theorem takeOctal_lt (n value : Nat) (input : List Char) :
    (takeOctal n value input).1 < (value + 1) * 8 ^ n := by
  have hValue (n value : Nat) : value < (value + 1) * 8 ^ n :=
    Nat.lt_of_lt_of_le (Nat.lt_succ_self value)
      (Nat.le_mul_of_pos_right _ (Nat.pow_pos (by decide)))
  fun_induction takeOctal n value input with
  | case1 n value c rest hDigit ih =>
    obtain ⟨hLow, hHigh⟩ := toNat_of_isOctalDigit hDigit
    have hDigits : (value + 1) * 8 ^ (n + 1) = ((value + 1) * 8) * 8 ^ n := by
      rw [Nat.mul_assoc, Nat.pow_succ']
    rw [hDigits]
    exact Nat.lt_of_lt_of_le ih (Nat.mul_le_mul_right _ (by omega))
  | case2 n value => exact hValue (n + 1) value
  | case3 n value => exact hValue n value

/-- A zero behind a backslash takes two more digits at most, so it always names a character. -/
theorem readEscape_zero (input : List Char) :
    readEscape ('0' :: input) =
      .ok (Char.ofNat (takeOctal 2 0 input).1, (takeOctal 2 0 input).2) := by
  have hSmall : (takeOctal 2 0 input).1 < 128 := (takeOctal_lt 2 0 input).trans_le (by decide)
  have hDigit : isOctalDigit '0' := by decide
  simp [readEscape, hDigit, hSmall]

/-- What the literal of a text stands for: a NUL takes up to two octal digits behind it, and they
name a character together. -/
def standsFor : List Char → List Char
  | [] => []
  | c :: rest =>
    if c = '\x00' then
      Char.ofNat (takeOctal 2 0 rest).1 :: standsFor (takeOctal 2 0 rest).2
    else c :: standsFor rest
termination_by text => text.length
decreasing_by
  · exact Nat.lt_succ_of_le (length_takeOctal_le 2 0 rest)
  · simp

/-- Does the literal of a text run code? -/
def interpolates : List Char → Bool
  | [] => false
  | c :: rest =>
    c = '#' && opensInterpolation (rest.flatMap escape ++ ['"']) || interpolates rest

/-- What follows the closing quote does not matter for a name. -/
theorem nameFollows_append {mark : Char} (hMark : mark ≠ '"') (written rest : List Char) :
    nameFollows mark (written ++ '"' :: rest) = nameFollows mark (written ++ ['"']) := by
  cases written with
  | nil => simp [nameFollows, hMark.symm]
  | cons c written => simp [nameFollows, List.head?_append]

/-- The closing quote ends the look ahead. -/
theorem opensInterpolation_append (written rest : List Char) :
    opensInterpolation (written ++ '"' :: rest) = opensInterpolation (written ++ ['"']) := by
  cases written with
  | nil => rfl
  | cons c written =>
    simp only [List.cons_append, opensInterpolation, List.head?_append, List.head?_cons,
      nameFollows_append (show '-' ≠ '"' by decide), nameFollows_append (show '@' ≠ '"' by decide)]

/-- Digits do not matter for interpolation. -/
theorem interpolates_takeOctal (n value : Nat) (text : List Char) :
    interpolates (takeOctal n value text).2 = interpolates text := by
  fun_induction takeOctal n value text with
  | case1 n value c rest hDigit ih =>
    have hHash : c ≠ '#' := by
      rintro rfl
      exact absurd hDigit (by decide)
    simp [ih, interpolates, hHash]
  | case2 => rfl
  | case3 => rfl

theorem prepend_ite (c : Char) (fails : Bool) (text rest : List Char) :
    prepend c (if fails then .error .interpolation else .ok (text, rest)) =
      if fails then .error .interpolation else .ok (c :: text, rest) := by
  cases fails <;> rfl

/-- **A written text is read**, up to its closing quote, as what it stands for, unless it runs
code. -/
theorem readLiteral_flatMap_escape (text rest : List Char) :
    readLiteral (text.flatMap escape ++ '"' :: rest) =
      if interpolates text then .error .interpolation else .ok (standsFor text, rest) := by
  fun_induction standsFor text with
  | case1 => simp [readLiteral, interpolates]
  | case2 text ih =>
    -- a NUL takes the same digits before and after they are written
    rw [List.flatMap_cons, List.append_assoc, show escape '\x00' = ['\\', '0'] from rfl]
    rw [List.cons_append, List.singleton_append, readLiteral_backslash (readEscape_zero _),
      takeOctal_flatMap_escape, ih, prepend_ite, interpolates_takeOctal]
    simp [interpolates]
  | case3 c text hNul ih =>
    rw [List.flatMap_cons, List.append_assoc]
    by_cases hHash : c = '#'
    · -- what stands behind a `#` decides whether code is run
      subst hHash
      rw [show escape '#' = ['#'] from rfl, List.singleton_append, readLiteral_hash,
        opensInterpolation_append, ih, prepend_ite]
      by_cases hOpens : opensInterpolation (text.flatMap escape ++ ['"']) <;>
        simp [interpolates, hOpens]
    · rw [readLiteral_escape hHash hNul, ih, prepend_ite]
      simp [interpolates, hHash]

/-! ## Which texts are read back -/

/-- Has this text a NUL with an octal digit behind it? -/
def NulTakesDigit (text : List Char) : Prop :=
  ∃ d, isOctalDigit d ∧ ['\x00', d] <:+: text

/-- A NUL takes a digit at the start of a text or later. -/
theorem nulTakesDigit_cons {c : Char} {text : List Char} :
    NulTakesDigit (c :: text) ↔
      (c = '\x00' ∧ text.head?.any isOctalDigit) ∨ NulTakesDigit text := by
  constructor
  · rintro ⟨d, hDigit, hInfix⟩
    rcases List.infix_cons_iff.1 hInfix with hPrefix | hBehind
    · obtain ⟨rfl, hHead⟩ := List.cons_prefix_cons.1 hPrefix
      obtain ⟨behind, rfl⟩ := hHead
      exact .inl ⟨rfl, hDigit⟩
    · exact .inr ⟨d, hDigit, hBehind⟩
  · rintro (⟨rfl, hHead⟩ | ⟨d, hDigit, hBehind⟩)
    · cases text with
      | nil => simp at hHead
      | cons d behind => exact ⟨d, hHead, [], behind, rfl⟩
    · exact ⟨d, hDigit, List.infix_cons hBehind⟩

/-- What is read is never longer than what was quoted. -/
theorem length_standsFor_le (text : List Char) : (standsFor text).length ≤ text.length := by
  fun_induction standsFor text with
  | case1 => simp
  | case2 rest ih =>
    have := length_takeOctal_le 2 0 rest
    simp only [List.length_cons]
    omega
  | case3 c rest hNul ih => simpa using ih

/-- The literal of a text stands for the text, unless a NUL takes a digit of it. -/
theorem standsFor_eq_self_iff (text : List Char) :
    standsFor text = text ↔ ¬ NulTakesDigit text := by
  fun_induction standsFor text with
  | case1 => simp [NulTakesDigit]
  | case2 rest ih =>
    by_cases hTakes : rest.head?.any isOctalDigit
    · -- a digit is gone, so what is read is shorter than the text
      have hShorter : (takeOctal 2 0 rest).2.length < rest.length :=
        length_takeOctal_lt 1 0 hTakes
      have hRead := length_standsFor_le (takeOctal 2 0 rest).2
      simp only [nulTakesDigit_cons, hTakes, and_self, true_or, not_true, iff_false]
      intro hSame
      have := congrArg List.length hSame
      simp only [List.length_cons] at this
      omega
    · rw [takeOctal_of_not 2 0 hTakes] at ih ⊢
      simp [nulTakesDigit_cons, hTakes, ih]
  | case3 c rest hNul ih => simp [nulTakesDigit_cons, hNul, ih]

example : standsFor ['/', '\x00', '1', '7', '7'] = ['/', '\x0f', '7'] := by cbv

end Lineage.Text
