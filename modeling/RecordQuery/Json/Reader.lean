import RecordQuery.Json.Draft

/-!
# Reading JSON

A text is cut into words – brackets, separators and scalars – and the words are put together by a
machine with a stack of open brackets. `draft?` is the draft of the whole text, or nothing if the
text is not JSON. `read?` is the value of a text that is looked at as a whole, and `readAs?` that
of the parts that a shape looks at.
-/

namespace RecordQuery.Json

/-! ## Texts -/

/-- The character of a backslash and a letter. -/
def shortEscape? : Char → Option Char
  | '"' => some '"'
  | '\\' => some '\\'
  | '/' => some '/'
  | 'b' => some '\x08'
  | 'f' => some '\x0c'
  | 'n' => some '\n'
  | 'r' => some '\r'
  | 't' => some '\t'
  | _ => none

/-- One piece of a text and what follows it: a raw character, a short escape or a unit of four
digits. -/
def readPiece? : List Char → Option (Piece × List Char)
  | '\\' :: 'u' :: a :: b :: c :: d :: rest => (Text.hexNumber? a b c d).map (.unit ·, rest)
  | '\\' :: e :: rest => (shortEscape? e).map (.char ·, rest)
  | '\\' :: [] => none
  | c :: rest => if c.toNat < 0x20 then none else some (.char c, rest)
  | [] => none

/-- The pieces up to the closing quote; `fuel` bounds their number. -/
def readText? : Nat → List Piece → List Char → Option (List Piece × List Char)
  | 0, _, _ => none
  | fuel + 1, done, cs =>
    match cs with
    | '"' :: rest => some (done.reverse, rest)
    | _ =>
      match readPiece? cs with
      | none => none
      | some (p, rest) => readText? fuel (p :: done) rest

/-! ## Words -/

/-- A word of the text. -/
inductive Word where
  /-- The opening bracket of an array. -/
  | openArray
  /-- The closing bracket of an array. -/
  | closeArray
  /-- The opening bracket of an object. -/
  | openObject
  /-- The closing bracket of an object. -/
  | closeObject
  /-- A colon. -/
  | colon
  /-- A comma. -/
  | comma
  /-- A text, which may be a name. -/
  | text (pieces : List Piece)
  /-- Any other scalar. -/
  | scalar (d : Draft)

/-- Whether the character may stand between words. -/
def isSpace (c : Char) : Bool := c = ' ' || c = '\n' || c = '\t' || c = '\r'

/-- The word at the front of a text that does not begin with a space. -/
def readWord? : List Char → Option (Word × List Char)
  | '[' :: r => some (.openArray, r)
  | ']' :: r => some (.closeArray, r)
  | '\x7b' :: r => some (.openObject, r)
  | '\x7d' :: r => some (.closeObject, r)
  | ':' :: r => some (.colon, r)
  | ',' :: r => some (.comma, r)
  | 'n' :: 'u' :: 'l' :: 'l' :: r => some (.scalar .null, r)
  | 't' :: 'r' :: 'u' :: 'e' :: r => some (.scalar (.bool true), r)
  | 'f' :: 'a' :: 'l' :: 's' :: 'e' :: r => some (.scalar (.bool false), r)
  | '"' :: r => (readText? (r.length + 1) [] r).map fun t => (.text t.1, t.2)
  | cs => (readNumeral? cs).map fun n => (.scalar (.number n.1), n.2)

/-- The words of a text; `fuel` bounds their number. -/
def readWords? : Nat → List Word → List Char → Option (List Word)
  | 0, _, _ => none
  | fuel + 1, done, cs =>
    match cs.dropWhile isSpace with
    | [] => some done.reverse
    | c :: r =>
      match readWord? (c :: r) with
      | none => none
      | some (w, rest) => readWords? fuel (w :: done) rest

/-! ## Drafts -/

/-- An open bracket with what it holds so far, latest first. -/
inductive Frame where
  /-- An array and its items. -/
  | array (items : List Draft)
  /-- An object, its members and the name of the value being read. -/
  | object (members : List (List Piece × Draft)) (name : List Piece)

/-- What may come next. -/
inductive Stage where
  /-- A value, or the end of the array that was just opened. -/
  | value (outer : List Frame) (mayClose : Bool)
  /-- A name, or the end of the object that was just opened. -/
  | name (members : List (List Piece × Draft)) (outer : List Frame) (mayClose : Bool)
  /-- The colon after a name. -/
  | colon (members : List (List Piece × Draft)) (name : List Piece) (outer : List Frame)
  /-- A comma or the end of an array. -/
  | item (items : List Draft) (outer : List Frame)
  /-- A comma or the end of an object. -/
  | member (members : List (List Piece × Draft)) (outer : List Frame)
  /-- Nothing: the value is complete. -/
  | done (d : Draft)

/-- A value has been read inside the given brackets. -/
def complete (d : Draft) : List Frame → Stage
  | [] => .done d
  | .array items :: outer => .item (d :: items) outer
  | .object members name :: outer => .member ((name, d) :: members) outer

/-- **The machine reads one word.** -/
def Stage.step? : Stage → Word → Option Stage
  | .value outer _, .openArray => some (.value (.array [] :: outer) true)
  | .value outer _, .openObject => some (.name [] outer true)
  | .value outer _, .text pieces => some (complete (.text pieces) outer)
  | .value outer _, .scalar d => some (complete d outer)
  | .value (.array items :: outer) true, .closeArray => some (complete (.array items) outer)
  | .name members outer _, .text pieces => some (.colon members pieces outer)
  | .name members outer true, .closeObject => some (complete (.object members) outer)
  | .colon members key outer, .colon => some (.value (.object members key :: outer) false)
  | .item items outer, .comma => some (.value (.array items :: outer) false)
  | .item items outer, .closeArray => some (complete (.array items.reverse) outer)
  | .member members outer, .comma => some (.name members outer false)
  | .member members outer, .closeObject => some (complete (.object members.reverse) outer)
  | _, _ => none

/-- **The draft of a text.** -/
def draft? (text : String) : Option Draft :=
  match readWords? (text.toList.length + 1) [] text.toList with
  | none => none
  | some words =>
    match words.foldlM Stage.step? (.value [] false) with
    | some (.done d) => some d
    | _ => none

/-- **The value of what a shape looks at in a text.** -/
def readAs? (s : Shape) (text : String) : Option Json := (draft? text).bind (Draft.value? s)

/-- **The value of a text.** -/
def read? (text : String) : Option Json := readAs? .whole text

end RecordQuery.Json
