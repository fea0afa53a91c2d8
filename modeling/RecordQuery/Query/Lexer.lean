import RecordQuery.Query.Token
import RecordQuery.Text.Blank
import RecordQuery.Text.Hex

/-!
# Reading tokens

`tokenize` cuts a query into tokens. Blanks separate tokens and are skipped; every other character
belongs to exactly one token. The sequence ends with the end of input or with the first error. A
`Reader` gives the same tokens out one at a time, each only when it is asked for.

Each token is read from the characters at hand by the longest match of its class: a word is a
letter or underscore and all letters, digits, underscores and points that follow; a number is an
optional minus, digits, an optional fraction and an optional exponent; a string literal runs to
the first quote of its kind that no backslash precedes. A `Lexeme` says how many characters
after the first one belong to the token, and a `Fault` where in the token an error lies, both
counted from the token's start.
-/

namespace RecordQuery

/-- Why a text is not a sequence of tokens. -/
inductive LexError.Cause where
  /-- A character that begins no token. -/
  | unexpected (c : Char)
  /-- An exclamation mark that begins no operator. -/
  | loneBang
  /-- A minus without a digit after it. -/
  | missingDigit
  /-- A number with a point and no digit after it. -/
  | malformedNumber (digits : String)
  /-- A string literal without its closing quote. -/
  | unterminated
  /-- A backslash before a character that makes no escape. -/
  | invalidEscape (c : Char)
  /-- A unicode escape that is too short or names no character. -/
  | invalidUnicode (digits : String)
  /-- An error that another source of tokens reports in its own words. -/
  | reported (message : String)
  deriving DecidableEq

/-- **An error in the text of a query** and its offset. -/
structure LexError where
  /-- Where the error lies. -/
  offset : Nat
  /-- What is wrong. -/
  cause : LexError.Cause
  deriving DecidableEq

/-- What is wrong, in words. -/
def LexError.Cause.describe : LexError.Cause → String
  | .unexpected c => "unexpected character '" ++ c.toString ++ "'"
  | .loneBang => "unexpected character '!' (did you mean '!=' or '!~'?)"
  | .missingDigit => "expected a digit after '-'"
  | .malformedNumber digits => "malformed number '" ++ digits ++ ".'"
  | .unterminated => "unterminated string literal"
  | .invalidEscape c => "invalid escape sequence '\\" ++ c.toString ++ "'"
  | .invalidUnicode digits => "invalid unicode escape '\\u" ++ digits ++ "'"
  | .reported message => message

/-- The message of an error, which names its position. -/
def LexError.message (e : LexError) : String :=
  e.cause.describe ++ " at position " ++ toString e.offset

/-- **A token at the front of a text**, without its place. -/
structure Lexeme where
  /-- The kind of the token. -/
  kind : TokenKind
  /-- The text of the token. -/
  text : List Char
  /-- How many characters after the first one belong to it. -/
  more : Nat
  deriving DecidableEq

/-- An error inside a token, counted from the token's first character. -/
structure Fault where
  /-- How far after the first character the error lies. -/
  shift : Nat
  /-- What is wrong. -/
  cause : LexError.Cause
  deriving DecidableEq

namespace Lexer

/-! ## Words -/

/-- Whether a word may begin with the character. -/
def startsWord (c : Char) : Bool := c.isAlpha || c = '_'

/-- Whether a word may go on with the character. -/
def continuesWord (c : Char) : Bool := c.isAlphanum || c = '_' || c = '.'

/-- The kind of a word: a keyword in any letter case, or else a name. -/
def wordKind (word : List Char) : TokenKind :=
  match String.ofList (word.map Char.toLower) with
  | "and" => .and
  | "or" => .or
  | "not" => .not
  | "in" => .operator .isIn
  | "true" => .bool
  | "false" => .bool
  | "null" => .null
  | _ => .name

/-- The word that begins with `c`. -/
def word (c : Char) (rest : List Char) : Lexeme :=
  let tail := rest.takeWhile continuesWord
  ⟨wordKind (c :: tail), c :: tail, tail.length⟩

/-! ## Numbers -/

/-- The exponent at the front of a text: `e`, an optional sign and at least one digit, or
nothing. -/
def exponent : List Char → List Char
  | e :: rest =>
    if e = 'e' ∨ e = 'E' then
      match rest with
      | s :: after =>
        if s = '+' ∨ s = '-' then
          let digits := after.takeWhile Char.isDigit
          if digits.isEmpty then [] else e :: s :: digits
        else
          let digits := rest.takeWhile Char.isDigit
          if digits.isEmpty then [] else e :: digits
      | [] => []
    else []
  | [] => []

/-- The number whose characters up to the fraction are `whole`, with `rest` after them. -/
def finishNumber (whole rest : List Char) (fraction : Bool) : Lexeme :=
  let tail := exponent rest
  let text := whole ++ tail
  ⟨if fraction || !tail.isEmpty then .float else .int, text, text.length - 1⟩

/-- The number whose sign and digits are `whole`, with `rest` after them. -/
def afterDigits (whole rest : List Char) : Except Fault Lexeme :=
  match rest with
  | '.' :: more =>
    let digits := more.takeWhile Char.isDigit
    if digits.isEmpty then .error ⟨whole.length, .malformedNumber (String.ofList whole)⟩
    else .ok (finishNumber (whole ++ '.' :: digits) (more.dropWhile Char.isDigit) true)
  | _ => .ok (finishNumber whole rest false)

/-- The number that begins with a minus or a digit `c`. -/
def number (c : Char) (rest : List Char) : Except Fault Lexeme :=
  let digits := rest.takeWhile Char.isDigit
  if c = '-' ∧ digits = [] then .error ⟨0, .missingDigit⟩
  else afterDigits (c :: digits) (rest.dropWhile Char.isDigit)

/-! ## String literals -/

/-- The character that four hexadecimal digits name; a surrogate is no character. -/
def unicode? (a b c d : Char) : Option Char :=
  match Text.hexNumber? a b c d with
  | some n => if Text.isSurrogate n then none else some (Char.ofNat n)
  | none => none

/-- The hexadecimal digits at the front of a text, four at most. -/
def hexPrefix (cs : List Char) : List Char :=
  (cs.take 4).takeWhile fun c => (Text.hexValue? c).isSome

/-- The character that a backslash and one letter or sign stand for. -/
def escaped? : Char → Option Char
  | '"' => some '"'
  | '\'' => some '\''
  | '\\' => some '\\'
  | '/' => some '/'
  | 'n' => some '\n'
  | 't' => some '\t'
  | 'r' => some '\r'
  | 'b' => some '\x08'
  | 'f' => some '\x0c'
  | _ => none

/-- Puts a character of `width` source characters in front of a literal's text. -/
def consChar (c : Char) (width : Nat) :
    Except Fault (List Char × Nat) → Except Fault (List Char × Nat)
  | .error f => .error f
  | .ok (text, n) => .ok (c :: text, width + n)

/-- **The text of a string literal** after its opening quote, and the number of source characters
up to its closing quote; `shift` is the distance of the first one from the opening quote. -/
def literal (quote : Char) (shift : Nat) : List Char → Except Fault (List Char × Nat)
  | [] => .error ⟨0, .unterminated⟩
  | '\\' :: [] => .error ⟨0, .unterminated⟩
  | '\\' :: 'u' :: a :: b :: c :: d :: rest =>
    match unicode? a b c d with
    | some ch => consChar ch 6 (literal quote (shift + 6) rest)
    | none => .error ⟨shift, .invalidUnicode (String.ofList (hexPrefix [a, b, c, d]))⟩
  | '\\' :: 'u' :: few => .error ⟨shift, .invalidUnicode (String.ofList (hexPrefix few))⟩
  | '\\' :: e :: rest =>
    match escaped? e with
    | some ch => consChar ch 2 (literal quote (shift + 2) rest)
    | none => .error ⟨shift, .invalidEscape e⟩
  | c :: rest =>
    if c = quote then .ok ([], 1) else consChar c 1 (literal quote (shift + 1) rest)

/-- The string literal that begins with the quote `c`. -/
def string (c : Char) (rest : List Char) : Except Fault Lexeme :=
  match literal c 1 rest with
  | .error f => .error f
  | .ok (text, more) => .ok ⟨.string, text, more⟩

/-! ## Tokens -/

/-- A token of one character. -/
def single (kind : TokenKind) (c : Char) : Lexeme := ⟨kind, [c], 0⟩

/-- The operator `long` if an equals sign follows, the operator `short` if none does. -/
def ordered (c : Char) (rest : List Char) (long short : Operator) : Lexeme :=
  match rest with
  | '=' :: _ => ⟨.operator long, [c, '='], 1⟩
  | _ => ⟨.operator short, [c], 0⟩

/-- **The token at the front of a text** that begins with the character `c`, which is no blank. -/
def lexeme (c : Char) (rest : List Char) : Except Fault Lexeme :=
  match c with
  | '(' => .ok (single .leftParen c)
  | ')' => .ok (single .rightParen c)
  | '[' => .ok (single .leftBracket c)
  | ']' => .ok (single .rightBracket c)
  | ',' => .ok (single .comma c)
  | '=' => .ok (single (.operator .equal) c)
  | '~' => .ok (single (.operator .contains) c)
  | '>' => .ok (ordered c rest .greaterEqual .greater)
  | '<' => .ok (ordered c rest .lessEqual .less)
  | '!' =>
    match rest with
    | '=' :: _ => .ok ⟨.operator .notEqual, ['!', '='], 1⟩
    | '~' :: _ => .ok ⟨.operator .notContains, ['!', '~'], 1⟩
    | _ => .error ⟨0, .loneBang⟩
  | '"' => string c rest
  | '\'' => string c rest
  | _ =>
    if c = '-' ∨ c.isDigit then number c rest
    else if startsWord c then .ok (word c rest)
    else .error ⟨0, .unexpected c⟩

/-- The tokens of a text that begins at an offset, up to the end of input or the first error. -/
def tokensFrom (offset : Nat) (cs : List Char) : List (Except LexError Token) :=
  let start := offset + (cs.takeWhile Text.isBlank).length
  match _h : Text.trimLeft cs with
  | [] => [.ok (.endOfInput start)]
  | c :: rest =>
    match lexeme c rest with
    | .error f => [.error ⟨start + f.shift, f.cause⟩]
    | .ok l =>
      .ok ⟨l.kind, String.ofList l.text, start⟩
        :: tokensFrom (start + (l.more + 1)) (rest.drop l.more)
termination_by cs.length
decreasing_by
  have := Text.length_trimLeft_le cs
  simp only [_h, List.length_cons] at this
  simp only [List.length_drop]
  omega

/-! ## One token at a time -/

/-- **A reader of tokens** somewhere in a text. -/
structure Reader where
  /-- The characters that it has not read yet. -/
  rest : List Char
  /-- The offset of the first of them. -/
  offset : Nat
  /-- Whether it has given the end of input or an error. -/
  finished : Bool
  deriving DecidableEq

namespace Reader

/-- The reader at the start of a query. -/
def ofQuery (query : String) : Reader := ⟨query.toList, 0, false⟩

/-- **The next item of a reader**, if it has one, and the reader after it. -/
def next (r : Reader) : Option (Except LexError Token) × Reader :=
  if r.finished then (none, r)
  else
    let start := r.offset + (r.rest.takeWhile Text.isBlank).length
    match Text.trimLeft r.rest with
    | [] => (some (.ok (.endOfInput start)), ⟨[], start, true⟩)
    | c :: rest =>
      match lexeme c rest with
      | .error f => (some (.error ⟨start + f.shift, f.cause⟩), ⟨c :: rest, start, true⟩)
      | .ok l =>
        (some (.ok ⟨l.kind, String.ofList l.text, start⟩),
          ⟨rest.drop l.more, start + (l.more + 1), false⟩)

/-- The item of a reader after `n` items. -/
def item? (r : Reader) : Nat → Option (Except LexError Token)
  | 0 => r.next.1
  | n + 1 => r.next.2.item? n

end Reader
end Lexer

/-- **The tokens of a query.** -/
def tokenize (query : String) : List (Except LexError Token) := Lexer.tokensFrom 0 query.toList

end RecordQuery
