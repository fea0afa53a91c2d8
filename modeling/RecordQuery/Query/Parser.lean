import RecordQuery.Query.Expr
import RecordQuery.Query.Lexer

/-!
# Reading expressions

A query is read one token at a time by a machine without look-ahead. Its state says what may come
next (`Stage`) and what has been read of the expressions that are still open: one `Group` for the
query itself and one for every open parenthesis. The language it accepts is

```
query      ::= disjunction END
disjunction ::= conjunction ("or" conjunction)*
conjunction ::= negation ("and" negation)*
negation   ::= "not" negation | "(" disjunction ")" | comparison
comparison ::= name operator operand | name "not" "in" operand
operand    ::= literal | name | "[" items "]" | "(" items ")"
items      ::= (literal ("," literal)* ","?)?
```

with at most `nestingLimit` parentheses and negations around any token and at most `termLimit`
comparisons. A conjunction binds closer than a disjunction, both group to the left, and a negation
reaches over what follows it only.

**An error lies at the first token that no query has after the tokens before it**, because the
machine refuses a token exactly when its state allows no such token. Some refusals come only after
the token has been taken, that is after the next token has been read; if that one is malformed,
its error is the one that is reported.
-/

namespace RecordQuery

/-- How many parentheses and negations may be open around a token. -/
def nestingLimit : Nat := 64

/-- How many comparisons a query may have. -/
def termLimit : Nat := 256

/-! ## Errors -/

/-- Why a sequence of tokens is not a query. -/
inductive ParseError.Cause where
  /-- After a complete query. -/
  | expectedEnd (found : Token)
  /-- After an expression in parentheses. -/
  | expectedParen (found : Token)
  /-- At the start of an expression. -/
  | expectedTerm (found : Token)
  /-- After the field of a comparison. -/
  | expectedOperator (found : Token) (field : NamePath)
  /-- After a field and a negation. -/
  | expectedIn (found : Token)
  /-- After an operator. -/
  | expectedValue (found : Token) (op : Operator)
  /-- In a list, after its bracket or a comma. -/
  | expectedItem (found : Token) (round : Bool)
  /-- In a list, after a literal. -/
  | expectedSeparator (found : Token) (round : Bool)
  /-- A path with two points in a row, or with one at its end. -/
  | emptySegment (text : String)
  /-- An integer literal beyond 64 bits. -/
  | integerRange (text : String)
  /-- A number literal beyond the greatest number. -/
  | numberRange (text : String)
  /-- More than `nestingLimit` levels. -/
  | tooDeep
  /-- More than `termLimit` comparisons. -/
  | tooMany
  deriving DecidableEq

/-- **An error in the order of tokens** and its offset. -/
structure ParseError where
  /-- Where the error lies. -/
  offset : Nat
  /-- What is wrong. -/
  cause : ParseError.Cause
  deriving DecidableEq

/-- The closing bracket of a list, as a message names it. -/
def closingName (round : Bool) : String := if round then "')'" else "']'"

/-- What is wrong, in words. -/
def ParseError.Cause.describe : ParseError.Cause → String
  | .expectedEnd t => "unexpected " ++ t.describe ++ ", expected 'and', 'or' or end of input"
  | .expectedParen t => "unexpected " ++ t.describe ++ ", expected ')'"
  | .expectedTerm t => "unexpected " ++ t.describe ++ ", expected a field name or '('"
  | .expectedOperator t field =>
    "unexpected " ++ t.describe ++ ", expected a comparison operator after '"
      ++ dotted field.segments ++ "'"
  | .expectedIn t => "unexpected " ++ t.describe ++ ", expected 'in' after 'not'"
  | .expectedValue t op =>
    "unexpected " ++ t.describe ++ ", expected a value after '" ++ op.symbol ++ "'"
  | .expectedItem t round =>
    "unexpected " ++ t.describe ++ ", expected a value or " ++ closingName round
  | .expectedSeparator t round =>
    "unexpected " ++ t.describe ++ ", expected ',' or " ++ closingName round
  | .emptySegment text => "invalid field name '" ++ text ++ "': empty path segment"
  | .integerRange text => "integer literal '" ++ text ++ "' is out of range"
  | .numberRange text => "number literal '" ++ text ++ "' is out of range"
  | .tooDeep => "expression is nested more than " ++ toString nestingLimit ++ " levels deep"
  | .tooMany => "query has more than " ++ toString termLimit ++ " comparisons"

/-- The message of an error, which names its position. -/
def ParseError.message (e : ParseError) : String :=
  e.cause.describe ++ " at position " ++ toString e.offset

/-- **Why a text is not a query**: its tokens are malformed, or their order is wrong. -/
inductive SyntaxError where
  /-- A malformed token. -/
  | lex (e : LexError)
  /-- A token out of place. -/
  | parse (e : ParseError)
  deriving DecidableEq

/-! ## Names and literals -/

/-- The offset of the first empty segment of a path that begins at an offset. -/
def emptySegment? (offset : Nat) : List (List Char) → Option Nat
  | [] => none
  | [] :: _ => some offset
  | segment :: rest => emptySegment? (offset + segment.length + 1) rest

/-- **The path of a name token.** Its segments stand between points, and none may be empty. -/
def Token.path (t : Token) : Except ParseError NamePath :=
  let segments := t.text.toList.splitOn '.'
  match emptySegment? t.offset segments with
  | some offset => .error ⟨offset, .emptySegment t.text⟩
  | none => .ok ⟨segments.map String.ofList, t.offset⟩

/-- **The value of a literal token.** Numbers must be in range; a token of another kind has the null
value. -/
def Token.literal (t : Token) : Except ParseError Literal :=
  match t.kind with
  | .int =>
    match readInt64? t.text.toList with
    | some n => .ok ⟨.int n, t.offset⟩
    | none => .error ⟨t.offset, .integerRange t.text⟩
  | .float =>
    match readBinary64? t.text.toList with
    | some x => .ok ⟨.float x, t.offset⟩
    | none => .error ⟨t.offset, .numberRange t.text⟩
  | .string => .ok ⟨.string t.text, t.offset⟩
  | .bool => .ok ⟨.bool (t.text.toList.map Char.toLower == ['t', 'r', 'u', 'e']), t.offset⟩
  | _ => .ok ⟨.null, t.offset⟩

/-! ## The machine -/

namespace Parser

/-- **An expression that is still open**: the query, or what an open parenthesis holds. -/
structure Group where
  /-- What stands to the left of the last disjunction. -/
  disjunct : Option Expr
  /-- What stands to the left of the last conjunction since then. -/
  conjunct : Option Expr
  /-- The offsets of the negations in front of the next term, the nearest first. -/
  negations : List Nat
  deriving DecidableEq

namespace Group

/-- A group of which nothing has been read. -/
def empty : Group := ⟨none, none, []⟩

/-- A term under the negations in front of it. -/
def negate (g : Group) (e : Expr) : Expr := g.negations.foldl Expr.not e

/-- A negated term with the conjunction to its left. -/
def conjoin (g : Group) (e : Expr) : Expr :=
  match g.conjunct with
  | none => e
  | some left => .logical .and left e

/-- A conjunction with the disjunction to its left. -/
def disjoin (g : Group) (e : Expr) : Expr :=
  match g.disjunct with
  | none => e
  | some left => .logical .or left e

/-- **The expression of a group** whose last negated term is `e`. -/
def close (g : Group) (e : Expr) : Expr := g.disjoin (g.conjoin e)

end Group

/-- A list operand of which the opening bracket has been read. -/
structure OpenList where
  /-- The field of the comparison. -/
  field : NamePath
  /-- The operator of the comparison. -/
  op : Operator
  /-- Whether the bracket is a parenthesis. -/
  round : Bool
  /-- The offset of the bracket. -/
  offset : Nat
  /-- The literals read so far, in order. -/
  items : List Literal
  deriving DecidableEq

/-- The kind of the token that ends the list. -/
def OpenList.closing (l : OpenList) : TokenKind := if l.round then .rightParen else .rightBracket

/-- **What may come next.** -/
inductive Stage where
  /-- A name, a parenthesis or a negation. -/
  | term
  /-- An operator, after the field of a comparison. -/
  | operator (field : NamePath)
  /-- The second word of `not in`. -/
  | negated (field : NamePath)
  /-- An operand. -/
  | value (field : NamePath) (op : Operator)
  /-- A literal or the end of a list. -/
  | item (l : OpenList)
  /-- A comma or the end of a list. -/
  | separator (l : OpenList)
  /-- A connective or the end of the group, after a negated term. -/
  | joint (e : Expr)
  deriving DecidableEq

/-- **The state of the machine.** -/
structure State where
  /-- What may come next. -/
  stage : Stage
  /-- The innermost open group. -/
  group : Group
  /-- The groups around it, the nearest first. -/
  outer : List Group
  /-- How many comparisons have begun. -/
  terms : Nat
  deriving DecidableEq

/-- What a token does. -/
inductive Outcome where
  /-- It ends the query. -/
  | accept (e : Expr)
  /-- The machine goes on. -/
  | next (s : State)
  /-- It is refused; `taken` says that the next token is read first. -/
  | refuse (taken : Bool) (e : ParseError)
  deriving DecidableEq

namespace State

/-- The state before the first token. -/
def initial : State := ⟨.term, .empty, [], 0⟩

/-- How many parentheses and negations are open. -/
def depth (s : State) : Nat :=
  s.outer.length + (s.group :: s.outer).foldr (fun g n => g.negations.length + n) 0

/-- The error of a token that does not fit the stage. -/
def mismatch (s : State) (t : Token) : ParseError :=
  match s.stage with
  | .term => ⟨t.offset, .expectedTerm t⟩
  | .operator field => ⟨t.offset, .expectedOperator t field⟩
  | .negated _ => ⟨t.offset, .expectedIn t⟩
  | .value _ op => ⟨t.offset, .expectedValue t op⟩
  | .item l => ⟨t.offset, .expectedItem t l.round⟩
  | .separator l => ⟨t.offset, .expectedSeparator t l.round⟩
  | .joint _ => ⟨t.offset, if s.outer.isEmpty then .expectedEnd t else .expectedParen t⟩

/-- A term is complete: the negations in front of it take effect. -/
def complete (s : State) (e : Expr) : State :=
  { s with stage := .joint (s.group.negate e), group := { s.group with negations := [] } }

/-- A comparison is complete. -/
def compare (s : State) (field : NamePath) (op : Operator) (value : Operand) : State :=
  s.complete (.comparison ⟨field, op, value, field.offset⟩)

/-- One more level, unless there are `nestingLimit` already. -/
def deepen (s : State) (t : Token) (deeper : State) : Outcome :=
  if s.depth < nestingLimit then .next deeper else .refuse true ⟨t.offset, .tooDeep⟩

/-- One more term, unless there are `termLimit` comparisons already. -/
def join (s : State) (t : Token) (group : Group) : Outcome :=
  if s.terms < termLimit then .next { s with stage := .term, group }
  else .refuse true ⟨t.offset, .tooMany⟩

/-- What a token that holds a value does. -/
def withValue {α : Type} (value : Except ParseError α) (go : α → State) : Outcome :=
  match value with
  | .error e => .refuse true e
  | .ok a => .next (go a)

/-- The group ends at a closing parenthesis. -/
def leave (s : State) (t : Token) (e : Expr) : Outcome :=
  match s.outer with
  | [] => .refuse false (s.mismatch t)
  | g :: outer => .next (complete { s with group := g, outer } (s.group.close e))

/-- The query ends. -/
def conclude (s : State) (t : Token) (e : Expr) : Outcome :=
  match s.outer with
  | [] => .accept (s.group.close e)
  | _ => .refuse false (s.mismatch t)

/-- A token where a literal or the end of a list may come. -/
def stepItem (s : State) (l : OpenList) (t : Token) : Outcome :=
  if t.kind = l.closing then .next (s.compare l.field l.op (.list l.items l.offset))
  else if t.kind.isLiteral then
    withValue t.literal fun v => { s with stage := .separator { l with items := l.items ++ [v] } }
  else .refuse false (s.mismatch t)

/-- A token where a comma or the end of a list may come. -/
def stepSeparator (s : State) (l : OpenList) (t : Token) : Outcome :=
  if t.kind = .comma then .next { s with stage := .item l }
  else if t.kind = l.closing then .next (s.compare l.field l.op (.list l.items l.offset))
  else .refuse false (s.mismatch t)

/-- A token where an operand may begin. -/
def stepValue (s : State) (field : NamePath) (op : Operator) (t : Token) : Outcome :=
  match t.kind with
  | .leftBracket => .next { s with stage := .item ⟨field, op, false, t.offset, []⟩ }
  | .leftParen => .next { s with stage := .item ⟨field, op, true, t.offset, []⟩ }
  | .name => withValue t.path fun p => s.compare field op (.name p)
  | kind =>
    if kind.isLiteral then withValue t.literal fun v => s.compare field op (.literal v)
    else .refuse false (s.mismatch t)

/-- A token where a term may begin. -/
def stepTerm (s : State) (t : Token) : Outcome :=
  match t.kind with
  | .not =>
    s.deepen t { s with group := { s.group with negations := t.offset :: s.group.negations } }
  | .leftParen => s.deepen t { s with group := .empty, outer := s.group :: s.outer }
  | .name => withValue t.path fun p => { s with stage := .operator p, terms := s.terms + 1 }
  | _ => .refuse false (s.mismatch t)

/-- A token after a negated term. -/
def stepJoint (s : State) (e : Expr) (t : Token) : Outcome :=
  match t.kind with
  | .and => s.join t { s.group with conjunct := some (s.group.conjoin e) }
  | .or => s.join t { s.group with disjunct := some (s.group.close e), conjunct := none }
  | .rightParen => s.leave t e
  | .endOfInput => s.conclude t e
  | _ => .refuse false (s.mismatch t)

/-- **The machine reads one token.** -/
def step (s : State) (t : Token) : Outcome :=
  match s.stage with
  | .term => s.stepTerm t
  | .operator field =>
    match t.kind with
    | .operator op => .next { s with stage := .value field op }
    | .not => .next { s with stage := .negated field }
    | _ => .refuse true (s.mismatch t)
  | .negated field =>
    if t.kind = .operator .isIn then .next { s with stage := .value field .notIn }
    else .refuse true (s.mismatch t)
  | .value field op => s.stepValue field op t
  | .item l => s.stepItem l t
  | .separator l => s.stepSeparator l t
  | .joint e => s.stepJoint e t

end State

/-- The error of a refused token, or that of the malformed token after it. -/
def refusal (taken : Bool) (e : ParseError) (rest : List (Except LexError Token)) : SyntaxError :=
  match taken, rest with
  | true, .error lex :: _ => .lex lex
  | _, _ => .parse e

/-- **Runs the machine over a sequence of tokens.** A sequence that stops early is continued by the
end of input, at the offset of the last token. -/
def run (s : State) (last : Nat) : List (Except LexError Token) → Except SyntaxError Expr
  | [] =>
    match s.step (.endOfInput last) with
    | .accept e => .ok e
    | .next s => .error (.parse (s.mismatch (.endOfInput last)))
    | .refuse _ e => .error (.parse e)
  | .error e :: _ => .error (.lex e)
  | .ok t :: rest =>
    match s.step t with
    | .accept e => .ok e
    | .next s => run s t.offset rest
    | .refuse taken e => .error (refusal taken e rest)

end Parser

/-- **The expression of a sequence of tokens.** -/
def parseTokens (tokens : List (Except LexError Token)) : Except SyntaxError Expr :=
  Parser.run .initial 0 tokens

/-- **The expression of a query.** -/
def parse (query : String) : Except SyntaxError Expr := parseTokens (tokenize query)

end RecordQuery
