import RecordQuery.Calendar.Date
import RecordQuery.Number.Decimal
import RecordQuery.Text.Blank

/-!
# Dates and times as texts

A date is written `2024-01-31`. A year that does not have four digits without a sign is written
with a sign, and every year with at least four digits. A datetime adds hours, minutes and seconds.

**Reading is more lenient than writing.** Blanks around the text are ignored, blanks may stand
before each number, and months, days and times may have one digit. A datetime is read in one of
five layouts: the Internet form with a time zone, which is converted to universal time; a date and
a time with seconds after blanks, without seconds, or with seconds after a `T`; or a date alone,
which is its midnight. Every layout takes the whole text.
-/

namespace RecordQuery

/-! ## Writing -/

/-- The digits of a number with zeros in front up to a width. -/
def paddedDigits (width n : Nat) : List Char :=
  let digits := digitsOf n
  List.replicate (width - digits.length) '0' ++ digits

/-- A year as it is written: four digits, or a sign and at least four digits. -/
def yearText (year : Int) : List Char :=
  if 0 ≤ year ∧ year ≤ 9999 then paddedDigits 4 year.natAbs
  else (if year < 0 then '-' else '+') :: paddedDigits 4 year.natAbs

/-- **A date as it is written.** -/
def Date.text (d : Date) : List Char :=
  yearText d.year ++ '-' :: paddedDigits 2 d.month ++ '-' :: paddedDigits 2 d.day

/-- A time of day to the second as it is written. -/
def DateTime.clockText (t : DateTime) : List Char :=
  paddedDigits 2 t.hour ++ ':' :: paddedDigits 2 t.minute ++ ':' :: paddedDigits 2 t.second

/-- **A datetime as it is written in a query**, without its fraction. -/
def DateTime.text (t : DateTime) : List Char := t.date.text ++ ' ' :: t.clockText

/-- The fraction of a second in three, six or nine digits, whichever is the first to be exact. -/
def fractionText (nanoseconds : Nat) : List Char :=
  if nanoseconds = 0 then []
  else if nanoseconds % 1000000 = 0 then '.' :: paddedDigits 3 (nanoseconds / 1000000)
  else if nanoseconds % 1000 = 0 then '.' :: paddedDigits 6 (nanoseconds / 1000)
  else '.' :: paddedDigits 9 nanoseconds

/-- **A datetime as it is written in JSON**, with a `T` and its fraction. -/
def DateTime.isoText (t : DateTime) : List Char :=
  t.date.text ++ 'T' :: t.clockText ++ fractionText t.fraction

/-! ## Reading parts

Each of these readers takes a part from the front of a text and returns the rest.
-/

namespace Reading

/-- The digits at the front, `limit` at most; there must be one. -/
def digits? (limit : Nat) (cs : List Char) : Option (Nat × List Char) :=
  let ds := (cs.take limit).takeWhile Char.isDigit
  if ds.isEmpty then none else some (ofDigits ds, cs.drop ds.length)

/-- Exactly `count` digits. -/
def exactly? (count : Nat) (cs : List Char) : Option (Nat × List Char) :=
  let ds := cs.take count
  if ds.length = count ∧ ds.all Char.isDigit = true then some (ofDigits ds, cs.drop count) else none

/-- A given character. -/
def char? (c : Char) : List Char → Option (List Char)
  | d :: rest => if d = c then some rest else none
  | [] => none

/-- A year: one to four digits, or a sign and any number of digits. -/
def year? (cs : List Char) : Option (Int × List Char) :=
  match Text.trimLeft cs with
  | '-' :: rest => (digits? rest.length rest).map fun r => (-(r.1 : Int), r.2)
  | '+' :: rest => (digits? rest.length rest).map fun r => ((r.1 : Int), r.2)
  | rest => (digits? 4 rest).map fun r => ((r.1 : Int), r.2)

/-- A number of one or two digits. -/
def part? (cs : List Char) : Option (Nat × List Char) := digits? 2 (Text.trimLeft cs)

/-- A date at the front of a text. -/
def date? (cs : List Char) : Option (Date × List Char) := do
  let (year, cs) ← year? cs
  let (month, cs) ← part? (← char? '-' cs)
  let (day, cs) ← part? (← char? '-' cs)
  return (← Date.ofParts? year month day, cs)

/-- Hours, minutes and seconds that make up the rest of a text. -/
def clock? (date : Date) (cs : List Char) : Option DateTime := do
  let (hour, cs) ← part? cs
  let (minute, cs) ← part? (← char? ':' cs)
  let (second, cs) ← part? (← char? ':' cs)
  if cs.isEmpty then DateTime.ofParts? date hour minute second 0 else none

/-- Hours and minutes that make up the rest of a text. -/
def shortClock? (date : Date) (cs : List Char) : Option DateTime := do
  let (hour, cs) ← part? cs
  let (minute, cs) ← part? (← char? ':' cs)
  if cs.isEmpty then DateTime.ofParts? date hour minute 0 0 else none

/-- The sign between date and time in the Internet form. -/
def isSeparator (c : Char) : Bool := c = 'T' || c = 't' || c = ' '

/-- A fraction of a second in nanoseconds; digits after the ninth are dropped. -/
def fraction? : List Char → Option (Nat × List Char)
  | '.' :: rest =>
    let ds := rest.takeWhile Char.isDigit
    if ds.isEmpty then none
    else
      let kept := ds.take 9
      some (ofDigits kept * Nat.pow 10 (9 - kept.length), rest.dropWhile Char.isDigit)
  | cs => some (0, cs)

/-- The distance of a time zone from universal time in minutes, which makes up the rest of a
text. -/
def zone? : List Char → Option Int
  | [] => none
  | c :: rest =>
    if c = 'Z' ∨ c = 'z' then if rest.isEmpty then some 0 else none
    else if c = '+' ∨ c = '-' ∨ c = '−' then do
      let (hours, rest) ← exactly? 2 rest
      let (minutes, rest) ← exactly? 2 (← char? ':' rest)
      let total := hours * 60 + minutes
      if rest.isEmpty ∧ minutes < 60 ∧ total < 1440 then
        some (if c = '+' then (total : Int) else -(total : Int))
      else none
    else none

/-! ## Layouts -/

/-- The Internet form: every number has its full width, and a time zone follows. -/
def internet? (cs : List Char) : Option DateTime := do
  let (year, cs) ← exactly? 4 cs
  let (month, cs) ← exactly? 2 (← char? '-' cs)
  let (day, cs) ← exactly? 2 (← char? '-' cs)
  match cs with
  | [] => none
  | c :: cs =>
    if !isSeparator c then none
    else
      let (hour, cs) ← exactly? 2 cs
      let (minute, cs) ← exactly? 2 (← char? ':' cs)
      let (second, cs) ← exactly? 2 (← char? ':' cs)
      let (fraction, cs) ← fraction? cs
      let minutes ← zone? cs
      let date ← Date.ofParts? year month day
      (← DateTime.ofParts? date hour minute second fraction).toUniversal? minutes

/-- A date and a time with seconds, with blanks or nothing between them. -/
def spaced? (cs : List Char) : Option DateTime := do
  let (date, cs) ← date? cs
  clock? date (Text.trimLeft cs)

/-- A date and a time without seconds. -/
def spacedShort? (cs : List Char) : Option DateTime := do
  let (date, cs) ← date? cs
  shortClock? date (Text.trimLeft cs)

/-- A date and a time with seconds after a `T`. -/
def joined? (cs : List Char) : Option DateTime := do
  let (date, cs) ← date? cs
  clock? date (← char? 'T' cs)

/-- A date alone. -/
def bareDate? (cs : List Char) : Option Date := do
  let (date, cs) ← date? cs
  if cs.isEmpty then some date else none

end Reading

/-- **Reads a date.** -/
def readDate? (s : List Char) : Option Date := Reading.bareDate? (Text.trim s)

/-- The layouts of a datetime, in the order they are tried. -/
def datetimeLayouts : List (List Char → Option DateTime) :=
  [Reading.internet?, Reading.spaced?, Reading.spacedShort?, Reading.joined?,
   fun cs => (readDate? cs).map DateTime.midnight]

/-- **Reads a datetime** in the first layout that fits. -/
def readDateTime? (s : List Char) : Option DateTime :=
  datetimeLayouts.findSome? fun layout => layout (Text.trim s)

end RecordQuery
