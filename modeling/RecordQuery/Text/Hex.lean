/-!
# Hexadecimal digits

Escapes name a character by four hexadecimal digits, in either letter case.
-/

namespace RecordQuery.Text

/-- The value of a hexadecimal digit. -/
def hexValue? (c : Char) : Option Nat :=
  if c.isDigit then some (c.toNat - '0'.toNat)
  else if 'a' ≤ c ∧ c ≤ 'f' then some (c.toNat - 'a'.toNat + 10)
  else if 'A' ≤ c ∧ c ≤ 'F' then some (c.toNat - 'A'.toNat + 10)
  else none

/-- **The number of four hexadecimal digits**, most significant digit first. -/
def hexNumber? (a b c d : Char) : Option Nat :=
  match hexValue? a, hexValue? b, hexValue? c, hexValue? d with
  | some w, some x, some y, some z => some (((w * 16 + x) * 16 + y) * 16 + z)
  | _, _, _, _ => none

/-- Whether a number below `2 ^ 16` is a surrogate, which names no character. -/
def isSurrogate (n : Nat) : Bool := 0xD800 ≤ n && n < 0xE000

end RecordQuery.Text
