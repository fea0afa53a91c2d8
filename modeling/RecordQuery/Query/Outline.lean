import RecordQuery.Query.Expr
import RecordQuery.Text.Spelled

/-!
# Outlines of expressions

An expression as an outline shows the whole tree, offsets included, one entry a line: each node
under its name, its parts indented by four spaces and followed by commas. `Outline` is the list of
lines, so that a part is nested by indenting its lines.
-/

namespace RecordQuery

/-- **The lines of an outline.** -/
abbrev Outline := List String

namespace Outline

/-- A name or a value on a line of its own. -/
def leaf (text : String) : Outline := [text]

/-- The outline with a text in front of its first line. -/
def labelled (label : String) : Outline → Outline
  | [] => [label]
  | first :: rest => (label ++ first) :: rest

/-- The outline with a comma behind its last line. -/
def ended (o : Outline) : Outline :=
  match o.reverse with
  | [] => [","]
  | last :: before => before.reverse ++ [last ++ ","]

/-- The outline one level further in, as a part among others. -/
def part (o : Outline) : Outline := o.ended.map ("    " ++ ·)

/-- Parts between two brackets. -/
def enclosed (opening closing : String) (parts : List Outline) : Outline :=
  opening :: parts.flatMap part ++ [closing]

/-- A node with named parts. -/
def record (name : String) (parts : List (String × Outline)) : Outline :=
  enclosed (name ++ " \x7b") "\x7d" (parts.map fun p => labelled (p.1 ++ ": ") p.2)

/-- A node around one part. -/
def around (name : String) (inner : Outline) : Outline := enclosed (name ++ "(") ")" [inner]

/-- A list of parts; an empty one stays on its line. -/
def list : List Outline → Outline
  | [] => leaf "[]"
  | parts => enclosed "[" "]" parts

/-- A natural number. -/
def nat (n : Nat) : Outline := leaf (toString n)

/-- The lines joined. -/
def text (o : Outline) : String := String.intercalate "\n" o

end Outline

/-- The name of an operator in an outline. -/
def Operator.outlineName : Operator → String
  | .equal => "Eq"
  | .notEqual => "Ne"
  | .greater => "Gt"
  | .greaterEqual => "Gte"
  | .less => "Lt"
  | .lessEqual => "Lte"
  | .contains => "Contains"
  | .notContains => "NotContains"
  | .isIn => "In"
  | .notIn => "NotIn"

/-- The name of a connective in an outline. -/
def Connective.outlineName : Connective → String
  | .and => "And"
  | .or => "Or"

/-- How numbers are written in an outline: positionally for exponents from -4 to 15 and with a
point, in scientific notation otherwise. -/
def Outline.numberLayout : Layout := ⟨some (-4), some 15, 16, false, true⟩

/-- The outline of a path. -/
def NamePath.outline (p : NamePath) : Outline :=
  .record "NamePath"
    [("segments", .list (p.segments.map fun s => .leaf (Text.spell s))), ("offset", .nat p.offset)]

/-- The outline of a literal's value. -/
def LiteralValue.outline : LiteralValue → Outline
  | .int n => .around "Int" (.leaf (String.ofList (intText n)))
  | .float x => .around "Float" (.leaf (x.text Outline.numberLayout))
  | .string s => .around "String" (.leaf (Text.spell s))
  | .bool b => .around "Bool" (.leaf (if b then "true" else "false"))
  | .null => .leaf "Null"

/-- The outline of a literal. -/
def Literal.outline (l : Literal) : Outline :=
  .record "Literal" [("value", l.value.outline), ("offset", .nat l.offset)]

/-- The outline of an operand. -/
def Operand.outline : Operand → Outline
  | .literal l => .around "Literal" l.outline
  | .list items offset =>
    .record "List" [("items", .list (items.map Literal.outline)), ("offset", .nat offset)]
  | .name path => .around "Name" path.outline

/-- The outline of a comparison. -/
def Comparison.outline (c : Comparison) : Outline :=
  .record "Comparison"
    [("field", c.field.outline), ("op", .leaf c.op.outlineName), ("value", c.value.outline),
      ("offset", .nat c.offset)]

/-- **The outline of an expression.** -/
def Expr.outline : Expr → Outline
  | .logical op left right =>
    .record "Logical"
      [("op", .leaf op.outlineName), ("left", left.outline), ("right", right.outline)]
  | .not operand offset =>
    .record "Not" [("operand", operand.outline), ("offset", .nat offset)]
  | .comparison c => .around "Comparison" c.outline

end RecordQuery
