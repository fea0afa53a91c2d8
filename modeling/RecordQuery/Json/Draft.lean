import RecordQuery.Json.Numeral
import RecordQuery.Json.Shape
import RecordQuery.Text.Hex

/-!
# Drafts of JSON values

A `Draft` is a JSON text with its brackets sorted out: its numbers and texts are kept as they are
written. Not every draft is the draft of a value: a number may be beyond every magnitude, an
escape may name half a character, and brackets may nest deeper than `nestingLimit`.

**Only what is looked at must have a value.** `Draft.value? s` is the value of the parts that the
shape `s` looks at, and leaves out the members that it passes over. The name of a member that
could have been looked at must be a text all the same.
-/

namespace RecordQuery.Json

/-- How many brackets may be open at once. -/
def nestingLimit : Nat := 127

/-! ## Texts -/

/-- **A piece of a text as it is written.** -/
inductive Piece where
  /-- A character, or an escape that names one. -/
  | char (c : Char)
  /-- An escape of four hexadecimal digits. -/
  | unit (n : Nat)
  deriving DecidableEq

/-- Whether a unit is the first half of a character. -/
def isFirstHalf (n : Nat) : Bool := 0xD800 ≤ n && n < 0xDC00

/-- Whether a unit is the second half of a character. -/
def isSecondHalf (n : Nat) : Bool := 0xDC00 ≤ n && n < 0xE000

/-- **The characters of a text**: two halves that follow each other make one character, and a half
that stands alone makes none. -/
def joinPieces? : List Piece → Option (List Char)
  | [] => some []
  | .char c :: rest => (joinPieces? rest).map (c :: ·)
  | .unit u :: .unit l :: rest =>
    if isFirstHalf u then
      if isSecondHalf l then
        (joinPieces? rest).map (Char.ofNat (0x10000 + (u - 0xD800) * 0x400 + (l - 0xDC00)) :: ·)
      else none
    else if isSecondHalf u then none
    else (joinPieces? (.unit l :: rest)).map (Char.ofNat u :: ·)
  | .unit u :: rest =>
    if Text.isSurrogate u then none else (joinPieces? rest).map (Char.ofNat u :: ·)

/-! ## Drafts -/

/-- **A value as it is written.** -/
inductive Draft where
  /-- The null value. -/
  | null
  /-- A truth value. -/
  | bool (b : Bool)
  /-- A number. -/
  | number (n : Numeral)
  /-- A text. -/
  | text (pieces : List Piece)
  /-- An array. -/
  | array (items : List Draft)
  /-- An object, with its members as written. -/
  | object (members : List (List Piece × Draft))

namespace Draft

mutual
/-- **The value of what a shape looks at**; `room` is how many brackets may still be opened. -/
def valueWithin? : Nat → Shape → Draft → Option Json
  | _, _, .null => some .null
  | _, _, .bool b => some (.bool b)
  | _, _, .number n => n.value?.map .number
  | _, _, .text pieces => (joinPieces? pieces).map fun cs => .string (String.ofList cs)
  | 0, _, .array _ => none
  | 0, _, .object _ => none
  | room + 1, s, .array items => (itemValues? room s 0 items).map .array
  | room + 1, s, .object members => (memberValues? room s members).map .object

/-- The values of the items of an array from a position on. -/
def itemValues? (room : Nat) (s : Shape) (i : Nat) : List Draft → Option (List Json)
  | [] => some []
  | d :: ds =>
    match valueWithin? room (s.atPosition i) d with
    | none => none
    | some v => (itemValues? room s (i + 1) ds).map (v :: ·)

/-- The members of an object that are looked at. -/
def memberValues? (room : Nat) (s : Shape) :
    List (List Piece × Draft) → Option (List (String × Json))
  | [] => some []
  | (pieces, d) :: ms =>
    match joinPieces? pieces with
    | none => none
    | some cs =>
      match s.ofMember? (String.ofList cs) with
      | none => memberValues? room s ms
      | some inner =>
        match valueWithin? room inner d with
        | none => none
        | some v => (memberValues? room s ms).map ((String.ofList cs, v) :: ·)
end

/-- **The value of what a shape looks at.** -/
def value? (s : Shape) (d : Draft) : Option Json := valueWithin? nestingLimit s d

end Draft
end RecordQuery.Json
