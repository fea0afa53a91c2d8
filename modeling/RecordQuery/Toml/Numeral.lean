import RecordQuery.Calendar.Date
import RecordQuery.Json.Value
import RecordQuery.Number.Decimal
import RecordQuery.Text.Hex

/-!
# Numbers, dates and times of TOML

What begins with a sign or a digit is an integer, a decimal, a date, a time or both. A date or time
becomes a table with one entry, its text: that is how it differs from a text and from every number.
-/

namespace RecordQuery.Toml

/-! ## Integers -/

/-- The digits of a base, between any two of which an underscore may stand. -/
def readDigits (isDigit : Char → Bool) : List Char → List Char × List Char
  | [] => ([], [])
  | '_' :: d :: r =>
    if isDigit d then
      let (digits, rest) := readDigits isDigit r
      (d :: digits, rest)
    else ([], '_' :: d :: r)
  | d :: r =>
    if isDigit d then
      let (digits, rest) := readDigits isDigit r
      (d :: digits, rest)
    else ([], d :: r)

/-- The value of an integer that fits 64 bits. -/
def fittingInt? (n : Int) : Option Json := if fitsInt64 n then some (.ofInt n) else none

/-- An integer in the base of a power of two, after its mark. -/
def readInBase? (base : Nat) (cs : List Char) : Option (Json × List Char) :=
  let isDigit (c : Char) : Bool := match Text.hexValue? c with | none => false | some n => n < base
  match cs with
  | [] => none
  | c :: _ =>
    if !isDigit c then none
    else
      let (digits, rest) := readDigits isDigit cs
      let n := digits.foldl (fun n d => base * n + (Text.hexValue? d).getD 0) 0
      (fittingInt? n).map (·, rest)

/-- **An integer of 64 bits**: decimal with an optional sign and without leading zeros, or after
the mark of another base. -/
def readInteger? (cs : List Char) : Option (Json × List Char) :=
  match cs with
  | '0' :: 'x' :: r => readInBase? 16 r
  | '0' :: 'o' :: r => readInBase? 8 r
  | '0' :: 'b' :: r => readInBase? 2 r
  | _ =>
    let (negative, cs) := splitSign cs
    match cs with
    | '0' :: r => some (.ofInt 0, r)
    | c :: _ =>
      if !c.isDigit then none
      else
        let (digits, rest) := readDigits Char.isDigit cs
        let n : Int := ofDigits digits
        (fittingInt? (if negative then -n else n)).map (·, rest)
    | [] => none

/-! ## Decimals -/

/-- One digit or more, between any two of which an underscore may stand. -/
def someDigits? (cs : List Char) : Option (List Char × List Char) :=
  match cs with
  | c :: _ => if c.isDigit then some (readDigits Char.isDigit cs) else none
  | [] => none

/-- The digits before a point or an exponent: a zero that stands alone, or digits that
begin with another one. -/
def wholeDigits? : List Char → Option (List Char × List Char)
  | '0' :: r => some (['0'], r)
  | cs => someDigits? cs

/-- The exponent at the front of a text. -/
def readExponent? : List Char → Option (Int × List Char)
  | c :: r =>
    if c = 'e' ∨ c = 'E' then
      let (negative, r) := splitSign r
      (someDigits? r).map fun (ds, rest) =>
        (if negative then -(ofDigits ds : Int) else ofDigits ds, rest)
    else none
  | [] => none

/-- The number of a sign, digits before and after the point, and an exponent; one beyond
the greatest is refused. -/
def decimalValue? (negative : Bool) (whole fraction : List Char) (exponent : Int) : Option Json :=
  let x := Binary64.ofDecimal negative (ofDigits (whole ++ fraction)) (exponent - fraction.length)
  if x = .infinity false then none else some (.number (.float x))

/-- **A decimal**: with a point, an exponent or both, or the name of a number that is not finite. -/
def readDecimal? (cs : List Char) : Option (Json × List Char) :=
  let (negative, cs) := splitSign cs
  match cs with
  | 'i' :: 'n' :: 'f' :: r => some (.number (.float (.infinity negative)), r)
  | 'n' :: 'a' :: 'n' :: r => some (.number (.float .nan), r)
  | _ =>
    match wholeDigits? cs with
    | none => none
    | some (whole, '.' :: r) =>
      match someDigits? r with
      | none => none
      | some (fraction, r) =>
        let (exponent, rest) := (readExponent? r).getD (0, r)
        (decimalValue? negative whole fraction exponent).map (·, rest)
    | some (whole, r) =>
      match readExponent? r with
      | none => none
      | some (exponent, rest) => (decimalValue? negative whole [] exponent).map (·, rest)

/-! ## Dates and times -/

/-- The number of exactly so many digits. -/
def readCount? (count : Nat) (cs : List Char) : Option (Nat × List Char) :=
  let ds := cs.take count
  if ds.length = count && ds.all Char.isDigit then some (ofDigits ds, cs.drop count) else none

/-- What follows a date: a year of four digits, a month and a day that there are. -/
def afterDate? (cs : List Char) : Option (List Char) :=
  match readCount? 4 cs with
  | some (year, '-' :: r) =>
    match readCount? 2 r with
    | some (month, '-' :: r) =>
      match readCount? 2 r with
      | some (day, r) =>
        if 1 ≤ month ∧ month ≤ 12 ∧ 1 ≤ day ∧ day ≤ daysInMonth year month then some r else none
      | none => none
    | _ => none
  | _ => none

/-- What follows an hour and a minute. -/
def afterMinute? (cs : List Char) : Option (List Char) :=
  match readCount? 2 cs with
  | some (hour, ':' :: r) =>
    match readCount? 2 r with
    | some (minute, r) => if hour < 24 ∧ minute < 60 then some r else none
    | none => none
  | _ => none

/-- What follows a time of day to the second, or to a fraction of it. -/
def afterTime? (cs : List Char) : Option (List Char) :=
  match afterMinute? cs with
  | some (':' :: r) =>
    match readCount? 2 r with
    | some (second, r) =>
      if second ≤ 60 then
        match r with
        | '.' :: d :: rest => if d.isDigit then some (rest.dropWhile Char.isDigit) else some r
        | _ => some r
      else none
    | none => none
  | _ => none

/-- What follows a time zone. -/
def afterZone? : List Char → Option (List Char)
  | c :: r =>
    if c = 'Z' ∨ c = 'z' then some r else if c = '+' ∨ c = '-' then afterMinute? r else none
  | [] => none

/-- What follows a time of day and its zone, if there is one. -/
def afterZonedTime? (cs : List Char) : Option (List Char) :=
  (afterTime? cs).map fun r => (afterZone? r).getD r

/-- What follows a date, a time of day, or a date and a time of day. -/
def afterMoment? (cs : List Char) : Option (List Char) :=
  match afterDate? cs with
  | none => afterTime? cs
  | some (c :: r) =>
    if c = 'T' ∨ c = 't' ∨ c = ' ' then some ((afterZonedTime? r).getD (c :: r)) else some (c :: r)
  | some [] => some []

/-- **A date or time.** -/
def readMoment? (cs : List Char) : Option (Json × List Char) :=
  (afterMoment? cs).map fun rest =>
    (.object [("moment", .string (String.ofList (cs.take (cs.length - rest.length))))], rest)

/-- **A number, a date or a time.** -/
def readNumeral? (cs : List Char) : Option (Json × List Char) :=
  ((readMoment? cs).or (readDecimal? cs)).or (readInteger? cs)

end RecordQuery.Toml
