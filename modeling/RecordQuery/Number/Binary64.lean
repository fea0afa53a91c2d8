/-!
# Binary64 numbers

Numbers that are not whole are numbers of the binary64 format: a sign and a magnitude. The
magnitudes of the format, from zero to infinity, are counted by their **rank**: rank `0` is zero,
rank `1` the least positive number, and rank `top` infinity. Neighbouring magnitudes have
neighbouring ranks, so the order of numbers is the order of integers (`key`), and "the neighbour
above" is `rank + 1`.

A rank is a *unit* and a *significand*: the magnitude is `significand * 2 ^ unit` in steps of the
least positive number `2 ^ (-1074)`. `scaled` is that product. `roundRatio` goes the other way: it
takes a fraction to the nearest magnitude, a tie to the even significand.

Comparison follows the format: the two zeros are equal, and not-a-number is unordered even with
itself. Everything is exact integer arithmetic.
-/

namespace RecordQuery

/-- Ranks per unit: a significand of the format has 52 bits below its leading one. -/
def Binary64.span : Nat := Nat.pow 2 52

/-- The rank of infinity. -/
def Binary64.top : Nat := 2047 * Binary64.span

/-- **A number of the binary64 format.** -/
inductive Binary64 where
  /-- Not a number. -/
  | nan
  /-- A sign and the rank of a magnitude, infinity included. -/
  | signed (negative : Bool) (rank : Nat) (rank_le : rank ≤ Binary64.top)
  deriving DecidableEq

namespace Binary64

instance : Inhabited Binary64 := ⟨.nan⟩

/-- The number of a sign and a rank; a rank beyond `top` is infinity. -/
def ofRank (negative : Bool) (rank : Nat) : Binary64 :=
  .signed negative (min rank top) (Nat.min_le_right rank top)

/-- Positive infinity and, with `negative`, negative infinity. -/
def infinity (negative : Bool) : Binary64 := ofRank negative top

/-- Zero of either sign. -/
def zero (negative : Bool) : Binary64 := ofRank negative 0

/-- How many bits the significand of a rank is shifted by. -/
def unitOf (rank : Nat) : Nat := rank / span - 1

/-- The significand of a rank. -/
def significandOf (rank : Nat) : Nat := rank - unitOf rank * span

/-- **The magnitude of a rank** in steps of `2 ^ (-1074)`. -/
def scaled (rank : Nat) : Nat := significandOf rank * Nat.pow 2 (unitOf rank)

/-- The number of steps of `2 ^ (-1074)` in one. -/
def one : Nat := Nat.pow 2 1074

/-- The quotient rounded to the nearest whole number, a tie to the even one. -/
def roundDiv (num den : Nat) : Nat :=
  let q := num / den
  let r := num % den
  if 2 * r < den then q
  else if den < 2 * r then q + 1
  else if q % 2 = 0 then q else q + 1

/-- **The rank nearest to the fraction `num / den`**, with infinity for what is too large. The unit
is chosen so that the significand has 53 bits, or fewer in the least unit; a significand that
rounds up to `2 ^ 53` makes the first rank of the next unit. -/
def roundRatio (num den : Nat) : Nat :=
  let steps := num * one
  let unit := Nat.log2 (steps / den) - 52
  min (roundDiv steps (den * Nat.pow 2 unit) + unit * span) top

/-- The nearest number to a signed fraction. -/
def ofRatio (negative : Bool) (num den : Nat) : Binary64 := ofRank negative (roundRatio num den)

/-- **The nearest number to an integer.** -/
def ofInt (n : Int) : Binary64 := ofRatio (n < 0) n.natAbs 1

/-- The nearest number to `digits * 10 ^ exponent`. The first two tests only spare the work on
powers that are beyond every magnitude. -/
def ofDecimal (negative : Bool) (digits : Nat) (exponent : Int) : Binary64 :=
  if digits = 0 then zero negative
  else
    let size : Int := (Nat.log2 digits : Int) * 30103 / 100000 + exponent
    if 400 < size then infinity negative
    else if size < -800 then zero negative
    else if exponent < 0 then ofRatio negative digits (Nat.pow 10 exponent.natAbs)
    else ofRatio negative (digits * Nat.pow 10 exponent.natAbs) 1

/-- Whether the number is neither infinite nor not-a-number. -/
def isFinite : Binary64 → Bool
  | .nan => false
  | .signed _ rank _ => rank < top

/-- The number with the opposite sign. -/
def neg : Binary64 → Binary64
  | .nan => .nan
  | .signed n rank h => .signed (!n) rank h

/-- The place of a number in the order: the two zeros share one. -/
def key? : Binary64 → Option Int
  | .nan => none
  | .signed negative rank _ => some (if negative then -(rank : Int) else rank)

/-- **The order of two numbers**; `none` if one of them is not a number. -/
def compare? (a b : Binary64) : Option Ordering :=
  match a.key?, b.key? with
  | some x, some y => some (compare x y)
  | _, _ => none

/-- The nearest number to the product of two magnitudes, as a rank. Infinity times anything
is left to the caller. -/
def mulRank (a b : Nat) : Nat := roundRatio (scaled a * scaled b) (one * one)

/-- The nearest number to the quotient of two magnitudes, as a rank. -/
def divRank (a b : Nat) : Nat := roundRatio (scaled a) (scaled b)

end Binary64
end RecordQuery
