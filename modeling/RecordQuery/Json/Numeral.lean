import RecordQuery.Json.Value

/-!
# Numerals

A number is read in two steps. A `Numeral` is the number as it is written: a sign, digits before
the point, digits after it and an exponent. Its value is found by gathering the digits as a whole
number as long as that fits 64 bits; digits that do not fit are dropped.

**A numeral without point and exponent whose digits all fit is an integer.** Any other is the
nearest binary64 number to the gathered digits, multiplied or divided by a power of ten with one
more rounding; so the last bit may differ from that of the nearest number to the decimal. The
numeral `-0` is a negative zero, and a numeral beyond the greatest magnitude has no value.
-/

namespace RecordQuery.Json

/-- **A number as it is written.** -/
structure Numeral where
  /-- Whether there is a minus. -/
  negative : Bool
  /-- The digits before the point. -/
  whole : List Char
  /-- The digits after the point, if there is one. -/
  fraction : Option (List Char)
  /-- The exponent, if there is one: whether it has a minus, and its size. -/
  exponent : Option (Bool × Nat)
  deriving DecidableEq

/-! ## Reading -/

/-- The exponent at the front of a text, if there is one: an `e`, a sign and digits. An `e` without
digits has no reading. -/
def readExponent? : List Char → Option (Option (Bool × Nat) × List Char)
  | c :: more =>
    if c = 'e' ∨ c = 'E' then
      let (negative, cs) := splitSign more
      let digits := cs.takeWhile Char.isDigit
      if digits.isEmpty then none
      else some (some (negative, ofDigits digits), cs.dropWhile Char.isDigit)
    else some (none, c :: more)
  | [] => some (none, [])

/-- The digits after the point at the front of a text, if there is one. A point without
digits has no reading. -/
def readFraction? : List Char → Option (Option (List Char) × List Char)
  | '.' :: more =>
    let digits := more.takeWhile Char.isDigit
    if digits.isEmpty then none else some (some digits, more.dropWhile Char.isDigit)
  | cs => some (none, cs)

/-- **The numeral at the front of a text.** A zero before the point stands alone. -/
def readNumeral? (cs : List Char) : Option (Numeral × List Char) :=
  let (negative, cs) := match cs with | '-' :: r => (true, r) | _ => (false, cs)
  let whole := cs.takeWhile Char.isDigit
  if whole.isEmpty || (whole.head? == some '0' && whole.length ≠ 1) then none
  else
    match readFraction? (cs.dropWhile Char.isDigit) with
    | none => none
    | some (fraction, cs) =>
      match readExponent? cs with
      | none => none
      | some (exponent, cs) => some (⟨negative, whole, fraction, exponent⟩, cs)

/-! ## Values -/

/-- The digits gathered so far and the power of ten that the dropped ones leave. -/
structure Gathered where
  /-- The digits as a whole number. -/
  digits : Nat
  /-- The power of ten. -/
  exponent : Int
  /-- Whether a digit did not fit. -/
  full : Bool

/-- Whether one more digit still fits 64 bits. -/
def Gathered.admits (g : Gathered) (c : Char) : Bool :=
  10 * g.digits + (c.toNat - '0'.toNat) ≤ greatestNat64

/-- One more digit before the point; once a digit is dropped, the later ones are too. -/
def Gathered.whole (g : Gathered) (c : Char) : Gathered :=
  if !g.full && g.admits c then
    { g with digits := 10 * g.digits + (c.toNat - '0'.toNat) }
  else { g with exponent := g.exponent + 1, full := true }

/-- One more digit after the point; a digit that does not fit ends the gathering. -/
def Gathered.fraction (g : Gathered) (c : Char) : Gathered :=
  if !g.full && g.admits c then
    { g with digits := 10 * g.digits + (c.toNat - '0'.toNat), exponent := g.exponent - 1 }
  else { g with full := true }

/-- Divides by `10 ^ 308` until the exponent is in reach; three steps bring every number of 64 bits
to zero. -/
def scaleDown (rank : Nat) (exponent : Int) : Nat → Nat
  | 0 => 0
  | steps + 1 =>
    let power := Binary64.roundRatio (Nat.pow 10 (min exponent.natAbs 308)) 1
    if exponent.natAbs ≤ 308 then Binary64.divRank rank power
    else scaleDown (Binary64.divRank rank power) (exponent + 308) steps

/-- **The number of gathered digits and a power of ten**, rounded twice. -/
def scaledNumber? (negative : Bool) (digits : Nat) (exponent : Int) : Option Number :=
  let rank := Binary64.roundRatio digits 1
  if exponent < 0 then some (.float (.ofRank negative (scaleDown rank exponent 4)))
  else if digits = 0 then some (.float (.zero negative))
  else if exponent ≤ 308 then
    let product := Binary64.mulRank rank (Binary64.roundRatio (Nat.pow 10 exponent.natAbs) 1)
    if product < Binary64.top then some (.float (.ofRank negative product)) else none
  else none

/-- The greatest exponent that is told from larger ones. -/
def exponentLimit : Nat := 2147483647

namespace Numeral

/-- The gathered digits. Gathering starts afresh at the point: a digit that fits again is kept. -/
def gathered (n : Numeral) : Gathered :=
  let g := n.whole.foldl Gathered.whole ⟨0, 0, false⟩
  match n.fraction with
  | none => g
  | some digits => digits.foldl Gathered.fraction { g with full := false }

/-- The value of an integer numeral whose digits all fit. -/
def wholeValue (n : Numeral) : Number :=
  let digits := n.gathered.digits
  if !n.negative then .int digits
  else if digits = 0 || leastInt64.natAbs < digits then
    .float (.ofRank true (Binary64.roundRatio digits 1))
  else .int (-(digits : Int))

/-- **The value of a numeral.** -/
def value? (n : Numeral) : Option Number :=
  let g := n.gathered
  match n.exponent with
  | some (down, e) =>
    if exponentLimit < e then
      if g.digits = 0 || down then some (.float (.zero n.negative)) else none
    else scaledNumber? n.negative g.digits (if down then g.exponent - e else g.exponent + e)
  | none =>
    if n.fraction.isNone && !g.full then some n.wholeValue
    else scaledNumber? n.negative g.digits g.exponent

end Numeral
end RecordQuery.Json
