import RecordQuery.Query.Operator
import RecordQuery.Text.Quoted

/-!
# Tokens

A query is read as a sequence of tokens. A token has a kind, a text and the offset of its first
character in the query. The text is the source text, except that a string literal has the text
between its quotes with the escapes resolved. The last token of a query is the end of input.
-/

namespace RecordQuery

/-- **The kind of a token.** -/
inductive TokenKind where
  /-- A field name or a dotted path. -/
  | name
  /-- An integer literal. -/
  | int
  /-- A number literal with a point or an exponent. -/
  | float
  /-- A quoted text. -/
  | string
  /-- A truth value. -/
  | bool
  /-- The null literal. -/
  | null
  /-- The conjunction. -/
  | and
  /-- The disjunction. -/
  | or
  /-- The negation. -/
  | not
  /-- A comparison operator. -/
  | operator (op : Operator)
  /-- An opening parenthesis. -/
  | leftParen
  /-- A closing parenthesis. -/
  | rightParen
  /-- An opening bracket. -/
  | leftBracket
  /-- A closing bracket. -/
  | rightBracket
  /-- A comma. -/
  | comma
  /-- The end of input. -/
  | endOfInput
  deriving DecidableEq

/-- Whether a token of this kind is a literal value. -/
def TokenKind.isLiteral : TokenKind → Bool
  | .int | .float | .string | .bool | .null => true
  | _ => false

/-- **A token of a query.** -/
structure Token where
  /-- What the token is. -/
  kind : TokenKind
  /-- The source text, or the text that a string literal stands for. -/
  text : String
  /-- The offset of the first character. -/
  offset : Nat
  deriving DecidableEq

namespace Token

/-- The end of input at an offset. -/
def endOfInput (offset : Nat) : Token := ⟨.endOfInput, "", offset⟩

instance : Inhabited Token := ⟨endOfInput 0⟩

/-- **The token as a message names it.** -/
def describe (t : Token) : String :=
  match t.kind with
  | .endOfInput => "end of input"
  | .string => "string " ++ Text.quote t.text
  | _ => "'" ++ t.text ++ "'"

end Token
end RecordQuery
