import RecordQuery.Number.Decimal
import RecordQuery.Text.HiddenTable

/-!
# Spelled-out text

A text between double quotes in which every character can be told from every other: a hidden one
is named by its number in hexadecimal digits. The quote, the backslash and four control characters
have short names, and every other character stands for itself.
-/

namespace RecordQuery.Text

/-- Whether a reader cannot tell the character on a page. -/
def isHidden (c : Char) : Bool := hiddenRanges.any fun r => r.1 ≤ c.toNat && c.toNat ≤ r.2

/-- How one character is spelled out. -/
def spellChar (c : Char) : List Char :=
  match c with
  | '"' => ['\\', '"']
  | '\\' => ['\\', '\\']
  | '\n' => ['\\', 'n']
  | '\t' => ['\\', 't']
  | '\r' => ['\\', 'r']
  | '\x00' => ['\\', '0']
  | c => if isHidden c then ['\\', 'u', '\x7b'] ++ Nat.toDigits 16 c.toNat ++ ['\x7d'] else [c]

/-- **A text spelled out between double quotes.** -/
def spell (s : String) : String := String.ofList ('"' :: (s.toList.flatMap spellChar ++ ['"']))

end RecordQuery.Text
