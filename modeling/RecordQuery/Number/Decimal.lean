import RecordQuery.Number.Binary64

/-!
# Decimals

Numbers in texts. An **integer** is an optional sign and digits, and must fit 64 bits with a sign. A
**decimal** is an optional sign, digits with at most one point among or around them, and an optional
exponent; it stands for `digits * 10 ^ exponent` exactly, and `Decimal.toBinary64` is the nearest
number to that.

Both readers take the whole text or nothing.
-/

namespace RecordQuery

/-- The decimal digits of a natural number; one zero for zero. -/
def digitsOf (n : Nat) : List Char := Nat.toDigits 10 n

/-- They are digits. -/
theorem isDigit_of_mem_digitsOf {n : Nat} {c : Char} (hc : c ∈ digitsOf n) : c.isDigit = true :=
  Nat.isDigit_of_mem_toDigits (by decide) (by decide) hc

/-- **The number that digits write**, most significant digit first. -/
def ofDigits (cs : List Char) : Nat := Nat.ofDigitChars 10 cs 0

/-- Digits write the number they were made from. -/
@[simp] theorem ofDigits_digitsOf (n : Nat) : ofDigits (digitsOf n) = n :=
  Nat.ofDigitChars_toDigits (by decide) (by decide)

/-- The decimal text of an integer. -/
def intText (n : Int) : List Char :=
  if n < 0 then '-' :: digitsOf n.natAbs else digitsOf n.natAbs

/-- The least integer of 64 bits. -/
def leastInt64 : Int := -9223372036854775808

/-- The greatest integer of 64 bits. -/
def greatestInt64 : Int := 9223372036854775807

/-- The greatest natural number of 64 bits. -/
def greatestNat64 : Nat := 18446744073709551615

/-- Whether an integer fits 64 bits with a sign. -/
def fitsInt64 (n : Int) : Bool := leastInt64 ≤ n && n ≤ greatestInt64

/-- Splits a leading sign off; `true` is a minus. -/
def splitSign : List Char → Bool × List Char
  | '-' :: cs => (true, cs)
  | '+' :: cs => (false, cs)
  | cs => (false, cs)

/-- **Reads an integer of 64 bits**: an optional sign and one digit or more. -/
def readInt64? (cs : List Char) : Option Int :=
  let (negative, digits) := splitSign cs
  if digits.isEmpty || !digits.all Char.isDigit then none
  else
    let n : Int := if negative then -(ofDigits digits : Int) else ofDigits digits
    if fitsInt64 n then some n else none

/-- **Reads a natural number of 64 bits**: an optional plus and one digit or more. -/
def readNat64? (cs : List Char) : Option Nat :=
  let digits := match cs with | '+' :: r => r | _ => cs
  if digits.isEmpty || !digits.all Char.isDigit then none
  else if ofDigits digits ≤ greatestNat64 then some (ofDigits digits)
  else none

/-- A signed decimal `digits * 10 ^ exponent`. -/
structure Decimal where
  /-- Whether a minus stands in front. -/
  negative : Bool
  /-- The digits as a whole number, without the point. -/
  digits : Nat
  /-- The power of ten. -/
  exponent : Int
  deriving DecidableEq

namespace Decimal

/-- Reads what follows the fraction: nothing, or `e`, an optional sign and digits. -/
def readExponent? : List Char → Option Int
  | [] => some 0
  | c :: cs =>
    if c = 'e' ∨ c = 'E' then
      let (negative, digits) := splitSign cs
      if digits.isEmpty || !digits.all Char.isDigit then none
      else some (if negative then -(ofDigits digits : Int) else ofDigits digits)
    else none

/-- Reads the digits after the sign, with a point where there is one. -/
def readMagnitude? (negative : Bool) (cs : List Char) : Option Decimal :=
  let whole := cs.takeWhile Char.isDigit
  let rest := cs.dropWhile Char.isDigit
  let (fraction, rest) :=
    match rest with
    | '.' :: more => (more.takeWhile Char.isDigit, more.dropWhile Char.isDigit)
    | _ => ([], rest)
  if whole.isEmpty && fraction.isEmpty then none
  else
    (readExponent? rest).map fun e =>
      ⟨negative, ofDigits (whole ++ fraction), e - fraction.length⟩

/-- **Reads a decimal.** -/
def read? (cs : List Char) : Option Decimal :=
  let (negative, rest) := splitSign cs
  readMagnitude? negative rest

/-- The nearest binary64 number. -/
def toBinary64 (d : Decimal) : Binary64 := Binary64.ofDecimal d.negative d.digits d.exponent

end Decimal

/-- **Reads a finite number**: a decimal that does not round to infinity. -/
def readBinary64? (cs : List Char) : Option Binary64 :=
  match Decimal.read? cs with
  | none => none
  | some d => if d.toBinary64.isFinite then some d.toBinary64 else none

end RecordQuery
