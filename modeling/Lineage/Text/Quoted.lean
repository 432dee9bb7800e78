/-
  Texts as literals between double quotes.

  A backslash stands before a quote and a backslash, and four controls have short names.  Any other
  character that is unprintable, or would join the one before it, is written by its code point.
-/
import Lineage.Text.Printable

namespace Lineage.Text

/-- How a character is written between the quotes. -/
def escape (c : Char) : List Char :=
  if c = '\x00' then ['\\', '0']
  else if c = '\t' then ['\\', 't']
  else if c = '\r' then ['\\', 'r']
  else if c = '\n' then ['\\', 'n']
  else if c = '\\' ∨ c = '"' then ['\\', c]
  else if isGraphemeExtend c || !isPrintable c then
    ['\\', 'u', '\x7b'] ++ Nat.toDigits 16 c.toNat ++ ['\x7d']
  else [c]

/-- The literal of a text. -/
def quote (text : String) : String :=
  String.ofList ('"' :: text.toList.flatMap escape ++ ['"'])

end Lineage.Text
