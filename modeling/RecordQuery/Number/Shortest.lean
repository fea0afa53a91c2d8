import RecordQuery.Number.Decimal

/-!
# The shortest decimal

A binary64 number is written with **the fewest digits that read back to it**, and of the decimals
with so few digits with the nearest one. The decimals that read back are those between the
midpoints to the two neighbouring magnitudes, the midpoints themselves included exactly when the
significand is even. `shortest` tries one digit, two digits and so on; on each grid of decimals
only the two that enclose the number can be the nearest.

What the digits look like on the page is a `Layout`: which exponents are written positionally,
whether a whole number keeps `.0`, and how an exponent is written. Every kind of output has its own
layout and all of them share `shortest`.
-/

namespace RecordQuery

/-- **How a number is laid out.** -/
structure Layout where
  /-- The least exponent of a first digit that is written positionally; without it, all are. -/
  positionalFrom : Option Int
  /-- The greatest such exponent. -/
  positionalTo : Option Int
  /-- A whole number ends in `.0` when the exponent of its first digit is below this. -/
  pointZeroBelow : Int
  /-- Whether a positive exponent has a plus. -/
  plusSign : Bool
  /-- Whether a number halfway between two shortest decimals goes up instead of to the even
  digit. -/
  tieUp : Bool
  deriving DecidableEq

namespace Binary64

/-- The exponent of the first digit of the magnitude `steps / one`. -/
def leadingExponent (steps : Nat) : Int :=
  if one ≤ steps then ((digitsOf (steps / one)).length : Int) - 1
  else -((digitsOf ((one + steps - 1) / steps - 1)).length : Int)

/-- Twice the magnitude `c * 10 ^ e`, and twice the magnitude of `steps`, over a common
denominator. -/
def onGrid (e : Int) (c : Nat) : Nat :=
  if 0 ≤ e then 2 * c * Nat.pow 10 e.natAbs * one else 2 * c * one

/-- The factor that brings a magnitude in steps to the denominator of `onGrid`. -/
def gridFactor (e : Int) : Nat := if 0 ≤ e then 1 else Nat.pow 10 e.natAbs

/-- The distance of two natural numbers. -/
def distance (a b : Nat) : Nat := (a - b) + (b - a)

/-- **The decimal of this grid that reads back as the rank**, if there is one: `c` and `c + 1` with
`c = ⌊magnitude / 10 ^ e⌋` are the only candidates for the nearest. -/
def gridHit? (tieUp : Bool) (rank : Nat) (e : Int) : Option Nat :=
  let f := gridFactor e
  let low := (scaled (rank - 1) + scaled rank) * f
  let middle := 2 * scaled rank * f
  let high := (scaled rank + scaled (rank + 1)) * f
  let readsBack (x : Nat) : Bool :=
    if rank % 2 = 0 then low ≤ x && x ≤ high else low < x && x < high
  let c := middle / onGrid e 1
  let below := onGrid e c
  let above := onGrid e (c + 1)
  match readsBack below, readsBack above with
  | true, false => some c
  | false, true => some (c + 1)
  | false, false => none
  | true, true =>
    let d₁ := distance middle below
    let d₂ := distance middle above
    if d₁ < d₂ then some c
    else if d₂ < d₁ then some (c + 1)
    else if tieUp || c % 2 = 1 then some (c + 1)
    else some c

/-- The first hit on the grids with the given exponent and finer ones; `fuel` grids are tried.
Seventeen digits always read back, so the last grid is never passed. -/
def firstHit (tieUp : Bool) (rank : Nat) (e : Int) : Nat → Nat × Int
  | 0 => (0, 0)
  | fuel + 1 =>
    match gridHit? tieUp rank e with
    | some c => (c, e)
    | none => firstHit tieUp rank (e - 1) fuel

/-- **The digits and the exponent of the first one** of the shortest decimal for a positive rank. -/
def shortest (tieUp : Bool) (rank : Nat) : List Char × Int :=
  let (c, e) := firstHit tieUp rank (leadingExponent (scaled rank)) 20
  let digits := digitsOf c
  let leading := e + digits.length - 1
  ((digits.reverse.dropWhile (· == '0')).reverse, leading)

/-- Digits with a point after the first digit of weight one. -/
def positional (pointZero : Bool) (digits : List Char) (leading : Int) : List Char :=
  if leading < 0 then
    ['0', '.'] ++ List.replicate (leading.natAbs - 1) '0' ++ digits
  else
    let whole := leading.natAbs + 1
    if digits.length ≤ whole then
      digits ++ List.replicate (whole - digits.length) '0' ++ (if pointZero then ['.', '0'] else [])
    else digits.take whole ++ '.' :: digits.drop whole

/-- Digits with a point after the first one, and an exponent. -/
def scientific (plusSign : Bool) (digits : List Char) (leading : Int) : List Char :=
  let mantissa :=
    match digits with
    | [] => []
    | [d] => [d]
    | d :: more => d :: '.' :: more
  let sign := if leading < 0 then ['-'] else if plusSign then ['+'] else []
  mantissa ++ 'e' :: sign ++ digitsOf leading.natAbs

/-- The text of a magnitude. -/
def magnitudeText (l : Layout) (rank : Nat) : List Char :=
  let (digits, leading) := if rank = 0 then (['0'], 0) else shortest l.tieUp rank
  let fromOk := match l.positionalFrom with | none => true | some e => decide (e ≤ leading)
  let toOk := match l.positionalTo with | none => true | some e => decide (leading ≤ e)
  if fromOk && toOk then positional (leading < l.pointZeroBelow) digits leading
  else scientific l.plusSign digits leading

/-- **The text of a number in a layout.** -/
def text (l : Layout) : Binary64 → String
  | .nan => "NaN"
  | .signed negative rank _ =>
    let magnitude := if rank = top then ['i', 'n', 'f'] else magnitudeText l rank
    String.ofList (if negative then '-' :: magnitude else magnitude)

end Binary64
end RecordQuery
