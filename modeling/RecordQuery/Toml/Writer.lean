import RecordQuery.Number.Decimal

/-!
# Writing TOML texts

A text is written in the plainest of four forms that shows it without escapes: between double
quotes, between single quotes, or between three of either, where it may break lines. A text that
no form shows is written with escapes, between three double quotes if it breaks lines and between
single ones otherwise. A tab is always escaped between double quotes.
-/

namespace RecordQuery.Toml

/-- The longest run of a character in a text that follows `run` more of them. -/
def longestRunAfter (c : Char) (run : Nat) : List Char → Nat
  | [] => run
  | d :: r => if d = c then longestRunAfter c (run + 1) r else max run (longestRunAfter c 0 r)

/-- **The longest run of a character.** -/
def longestRun (c : Char) (cs : List Char) : Nat := longestRunAfter c 0 cs

/-- Whether the character can only be written with an escape. -/
def needsEscape (c : Char) : Bool :=
  (c.toNat < 0x20 && c ≠ '\t' && c ≠ '\n') || c.toNat = 0x7F

/-- The escape of a control character by its number. -/
def codeEscape (c : Char) : List Char :=
  let digits := Nat.toDigits 16 c.toNat
  '\\' :: 'u' :: List.replicate (4 - digits.length) '0' ++ digits.map Char.toUpper

/-- How a character other than the double quote is written between double quotes; `lines` says
whether a line break may stand for itself. -/
def escapeChar (lines : Bool) (c : Char) : List Char :=
  match c with
  | '\x08' => ['\\', 'b']
  | '\t' => ['\\', 't']
  | '\n' => if lines then ['\n'] else ['\\', 'n']
  | '\x0c' => ['\\', 'f']
  | '\r' => ['\\', 'r']
  | '\\' => ['\\', '\\']
  | c => if needsEscape c then codeEscape c else [c]

/-- A text between double quotes that follows `run` quotes; one that would be the third in a row,
or on one line any, is escaped. -/
def escapedAfter (lines : Bool) (run : Nat) : List Char → List Char
  | [] => []
  | '"' :: r =>
    if lines && run < 2 then '"' :: escapedAfter lines (run + 1) r
    else '\\' :: '"' :: escapedAfter lines 0 r
  | c :: r => escapeChar lines c ++ escapedAfter lines 0 r

/-- A text between single or triple quotes of a kind. -/
def enclose (quote : Char) (lines breaks : Bool) (cs : List Char) : List Char :=
  let mark := List.replicate (if lines then 3 else 1) quote
  mark ++ (if lines && breaks then ['\n'] else []) ++ cs ++ mark

/-- **A text as it is written.** -/
def quoted (s : String) : String :=
  let cs := s.toList
  let control := cs.any needsEscape
  let breaks := cs.contains '\n'
  let double := longestRun '"' cs
  let single := longestRun '\'' cs
  let basic (lines : Bool) := enclose '"' lines breaks (escapedAfter lines 0 cs)
  String.ofList <|
    if control then basic breaks
    else if !breaks && !cs.contains '\\' && double = 0 then basic false
    else if !breaks && single = 0 then enclose '\'' false breaks cs
    else if !cs.contains '\\' && double ≤ 2 then basic true
    else if single ≤ 2 then enclose '\'' true breaks cs
    else basic breaks

end RecordQuery.Toml
