/-!
# Dates and times

A **date** is a day of the proleptic Gregorian calendar in one of the years from -262143 to
262142, and a **datetime** is a date and a time of day without a time zone. A second may be the
sixtieth, which is a leap second and comes after the fifty-ninth. Both are ordered by time, which
is the lexicographic order of their parts.

Only days that exist are dates: the proof that a day exists is part of the type, and `Date.ofParts?`
finds it or refuses.
-/

namespace RecordQuery

/-- Whether a year has a leap day. -/
def isLeapYear (year : Int) : Bool := year % 4 = 0 && (year % 100 ≠ 0 || year % 400 = 0)

/-- How many days a month has; none if there is no such month. -/
def daysInMonth (year : Int) (month : Nat) : Nat :=
  match month with
  | 1 | 3 | 5 | 7 | 8 | 10 | 12 => 31
  | 4 | 6 | 9 | 11 => 30
  | 2 => if isLeapYear year then 29 else 28
  | _ => 0

/-- The least year of the calendar. -/
def leastYear : Int := -262143

/-- The greatest year of the calendar. -/
def greatestYear : Int := 262142

/-- Whether there is a day with these parts. -/
def dayExists (year : Int) (month day : Nat) : Bool :=
  leastYear ≤ year && year ≤ greatestYear && 1 ≤ day && day ≤ daysInMonth year month

/-- **A day of the calendar.** -/
structure Date where
  /-- The year. -/
  year : Int
  /-- The month, from one. -/
  month : Nat
  /-- The day of the month, from one. -/
  day : Nat
  /-- There is such a day. -/
  valid : dayExists year month day = true
  deriving DecidableEq

namespace Date

/-- The date of a year, a month and a day, if there is such a day. -/
def ofParts? (year : Int) (month day : Nat) : Option Date :=
  if valid : dayExists year month day = true then some ⟨year, month, day, valid⟩ else none

/-- The first day of the year zero. -/
def origin : Date := ⟨0, 1, 1, by decide⟩

instance : Inhabited Date := ⟨origin⟩

/-- **The order of days.** -/
def compare (a b : Date) : Ordering :=
  (Ord.compare a.year b.year).then ((Ord.compare a.month b.month).then (Ord.compare a.day b.day))

/-- The next day, unless it is beyond the calendar. -/
def next? (d : Date) : Option Date :=
  match ofParts? d.year d.month (d.day + 1), ofParts? d.year (d.month + 1) 1 with
  | some e, _ => some e
  | none, some e => some e
  | none, none => ofParts? (d.year + 1) 1 1

/-- The day before, unless it is beyond the calendar. -/
def previous? (d : Date) : Option Date :=
  if 1 < d.day then ofParts? d.year d.month (d.day - 1)
  else if 1 < d.month then ofParts? d.year (d.month - 1) (daysInMonth d.year (d.month - 1))
  else ofParts? (d.year - 1) 12 31

end Date

/-- The number of nanoseconds in a second. -/
def nanosecondsPerSecond : Nat := 1000000000

/-- Whether there is a time of day with these parts; the last is in nanoseconds. -/
def timeExists (hour minute second fraction : Nat) : Bool :=
  hour < 24 && minute < 60 && second ≤ 60 && fraction < nanosecondsPerSecond

/-- **A day and a time of day.** -/
structure DateTime where
  /-- The day. -/
  date : Date
  /-- The hour. -/
  hour : Nat
  /-- The minute. -/
  minute : Nat
  /-- The second; the sixtieth is a leap second. -/
  second : Nat
  /-- The nanoseconds. -/
  fraction : Nat
  /-- There is such a time. -/
  valid : timeExists hour minute second fraction = true
  deriving DecidableEq

namespace DateTime

/-- The datetime of a date and a time of day, if there is such a time. -/
def ofParts? (date : Date) (hour minute second fraction : Nat) : Option DateTime :=
  if valid : timeExists hour minute second fraction = true then
    some ⟨date, hour, minute, second, fraction, valid⟩
  else none

/-- **The first moment of a day.** -/
def midnight (date : Date) : DateTime := ⟨date, 0, 0, 0, 0, by decide⟩

instance : Inhabited DateTime := ⟨midnight .origin⟩

/-- **The order of moments.** -/
def compare (a b : DateTime) : Ordering :=
  (a.date.compare b.date).then ((Ord.compare a.hour b.hour).then
    ((Ord.compare a.minute b.minute).then
      ((Ord.compare a.second b.second).then (Ord.compare a.fraction b.fraction))))

/-- The moment in universal time that is `minutes` ahead of it in a zone; the offset is less than a
day. -/
def toUniversal? (t : DateTime) (minutes : Int) : Option DateTime :=
  let total : Int := t.hour * 60 + t.minute - minutes
  let shifted :=
    if total < 0 then (t.date.previous?, total + 1440)
    else if 1440 ≤ total then (t.date.next?, total - 1440)
    else (some t.date, total)
  shifted.1.bind fun date =>
    ofParts? date (shifted.2.toNat / 60) (shifted.2.toNat % 60) t.second t.fraction

end DateTime
end RecordQuery
