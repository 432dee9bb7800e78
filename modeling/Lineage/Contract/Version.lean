/-
  The order of library versions.

  A version is read as its runs: maximal runs of ASCII digits, and maximal runs of other letters
  and numbers.  Everything else only separates, so `1.0`, `1-0` and `.1..0` are one version in
  different spellings.  Runs of digits compare as numbers of any length, the others as words
  without regard to ASCII case; a word comes before a number (`1.0.beta` before `1.0.0`), and a
  version that ends first comes first.

  Where the wanted version is not among the candidates, the nearest one below competes with the
  nearest one above, by how much of its TEXT it shares with the wanted one.
-/
import Lineage.Text.Alphanumeric
import Lineage.Text.Utf8

namespace Lineage.Version

/-! ## Runs -/

/-- What a character is in a version. -/
inductive Part where
  | digit
  | letter
  | separator
  deriving DecidableEq, Repr

/-- The part of a version that a character belongs to. -/
def Part.ofChar (c : Char) : Part :=
  if c.isDigit then digit else if Text.isAlphanumeric c then letter else separator

/-- A run of characters of one part. -/
inductive Run where
  /-- A number, without leading zeros. -/
  | number (digits : List Char)
  /-- A word, in lower case as far as ASCII goes. -/
  | word (letters : List Char)
  deriving DecidableEq, Repr

/-- The run of a group of characters of one kind; separators are none. -/
def Run.ofGroup? (group : List Char) : Option Run :=
  match group.head?.map Part.ofChar with
  | some .digit => some (number (group.dropWhile (· = '0')))
  | some .letter => some (word (group.map Char.toLower))
  | _ => none

/-- The runs of a version, in order. -/
def runs (version : String) : List Run :=
  (version.toList.splitBy fun a b => Part.ofChar a = Part.ofChar b).filterMap Run.ofGroup?

/-! ## Comparing -/

/-- Numbers without leading zeros compare by length first, then by their digits. -/
def Run.compare : Run → Run → Ordering
  | number a, number b => (Ord.compare a.length b.length).then (Ord.compare a b)
  | word a, word b => Ord.compare a b
  | word _, number _ => .lt
  | number _, word _ => .gt

/-- The order of versions: run by run, and the shorter one first. -/
def compare (a b : String) : Ordering := List.compareLex Run.compare (runs a) (runs b)

/-! ## The nearest version -/

/-- The number of leading bytes that two texts share. -/
def sharedPrefix : List UInt8 → List UInt8 → Nat
  | a :: as, b :: bs => if a = b then sharedPrefix as bs + 1 else 0
  | _, _ => 0

/-- How far two bytes are apart. -/
def gap (a b : UInt8) : Nat := (a.toNat - b.toNat) + (b.toNat - a.toNat)

/-- Is the text `first` closer to `wanted` than `second` is?  The one that shares the longer
    prefix is; if both share an equally long one that is not empty, the one whose next byte is
    nearer. -/
def isCloser (wanted first second : List UInt8) : Bool :=
  let shared := sharedPrefix wanted first
  if shared ≠ sharedPrefix wanted second then sharedPrefix wanted second < shared
  else if shared = 0 then false
  else
    match wanted[shared]?, first[shared]?, second[shared]? with
    | some w, some f, some s => gap w f < gap w s
    | _, _, _ => false

variable {β : Type}

/-- The earliest of the candidates that no other one improves on. -/
def best (improves : String → String → Bool) (candidates : List (String × β)) :
    Option (String × β) :=
  candidates.foldl (fun chosen candidate =>
    match chosen with
    | none => some candidate
    | some c => if improves candidate.1 c.1 then some candidate else some c) none

/-- The earliest candidate of the greatest version below `wanted`. -/
def floor (wanted : String) (candidates : List (String × β)) : Option (String × β) :=
  best (compare · · = .gt) (candidates.filter fun c => compare c.1 wanted = .lt)

/-- The earliest candidate of the least version above `wanted`. -/
def ceiling (wanted : String) (candidates : List (String × β)) : Option (String × β) :=
  best (compare · · = .lt) (candidates.filter fun c => compare c.1 wanted = .gt)

/-- What the candidates have for the version nearest to `wanted`: the earliest of that version if
    there is one, else the closer of the two neighbours, the lower one if neither is. -/
def nearest (wanted : String) (candidates : List (String × β)) : Option β :=
  match candidates.find? fun c => compare c.1 wanted = .eq with
  | some exact => some exact.2
  | none =>
    match floor wanted candidates, ceiling wanted candidates with
    | some low, some high =>
      if isCloser (Utf8.encode wanted) (Utf8.encode high.1) (Utf8.encode low.1) then some high.2
      else some low.2
    | some low, none => some low.2
    | none, some high => some high.2
    | none, none => none

end Lineage.Version
