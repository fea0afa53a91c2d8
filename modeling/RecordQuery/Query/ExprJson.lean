import RecordQuery.Json.Decode
import RecordQuery.Query.Expr

/-!
# Expressions as JSON

The JSON form of an expression has one object a node, told apart by the member `node`, with the
members in a fixed order. A number that is not finite is written as null. `Expr.ofJson?` reads the
form back; there a number that is not finite is given by its name.
-/

namespace RecordQuery

/-- The members of a path. -/
def NamePath.jsonMembers (p : NamePath) : List (String × Json) :=
  [("segments", .array (p.segments.map .string)), ("offset", .ofNat p.offset)]

/-- The kind and the value of a literal; null has no value. -/
def LiteralValue.jsonMembers : LiteralValue → List (String × Json)
  | .int n => [("type", .string "int"), ("value", .ofInt n)]
  | .float x =>
    [("type", .string "float"), ("value", if x.isFinite then .number (.float x) else .null)]
  | .string s => [("type", .string "string"), ("value", .string s)]
  | .bool b => [("type", .string "bool"), ("value", .bool b)]
  | .null => [("type", .string "null")]

/-- The members of a literal. -/
def Literal.jsonMembers (l : Literal) : List (String × Json) :=
  l.value.jsonMembers ++ [("offset", .ofNat l.offset)]

/-- The JSON form of an operand. -/
def Operand.toJson : Operand → Json
  | .literal l => .object (("kind", .string "literal") :: l.jsonMembers)
  | .list items offset =>
    .object [("kind", .string "list"), ("items", .array (items.map fun l => .object l.jsonMembers)),
      ("offset", .ofNat offset)]
  | .name path => .object (("kind", .string "name") :: path.jsonMembers)

/-- The JSON form of a comparison. -/
def Comparison.toJson (c : Comparison) : Json :=
  .object [("node", .string "comparison"), ("field", .object c.field.jsonMembers),
    ("op", .string c.op.symbol), ("value", c.value.toJson), ("offset", .ofNat c.offset)]

/-- **The JSON form of an expression.** -/
def Expr.toJson : Expr → Json
  | .logical op left right =>
    .object [("node", .string "logical"), ("op", .string op.keyword), ("left", left.toJson),
      ("right", right.toJson)]
  | .not operand offset =>
    .object [("node", .string "not"), ("operand", operand.toJson), ("offset", .ofNat offset)]
  | .comparison c => c.toJson

/-! ## Reading -/

/-- Reads an offset. -/
def offset? (v : Json) : Option Nat := (v.member? "offset").bind Json.nat?

/-- Reads a path. -/
def NamePath.ofJson? (v : Json) : Option NamePath := do
  let segments ← (← v.member? "segments") |> Json.list? Json.text?
  return ⟨segments, ← offset? v⟩

/-- Reads a literal. -/
def Literal.ofJson? (v : Json) : Option Literal := do
  let offset ← offset? v
  let value := v.member? "value"
  match ← (← v.member? "type").text? with
  | "int" => return ⟨.int (← value.bind Json.int64?), offset⟩
  | "float" => return ⟨.float (← value.bind Json.binary64?), offset⟩
  | "string" => return ⟨.string (← value.bind Json.text?), offset⟩
  | "bool" => return ⟨.bool (← value.bind Json.bool?), offset⟩
  | "null" => return ⟨.null, offset⟩
  | _ => none

/-- Reads an operand. -/
def Operand.ofJson? (v : Json) : Option Operand := do
  match ← (← v.member? "kind").text? with
  | "literal" => return .literal (← Literal.ofJson? v)
  | "list" =>
    return .list (← (← v.member? "items") |> Json.list? Literal.ofJson?) (← offset? v)
  | "name" => return .name (← NamePath.ofJson? v)
  | _ => none

/-- Reads a comparison. -/
def Comparison.ofJson? (v : Json) : Option Comparison := do
  let field ← NamePath.ofJson? (← v.member? "field")
  let op ← Operator.ofSymbol? (← (← v.member? "op").text?)
  return ⟨field, op, ← Operand.ofJson? (← v.member? "value"), ← offset? v⟩

/-- Reads a connective. -/
def Connective.ofKeyword? : String → Option Connective
  | "and" => some .and
  | "or" => some .or
  | _ => none

/-- Reads an expression of at most `levels` levels. -/
def Expr.ofJsonWithin? : Nat → Json → Option Expr
  | 0, _ => none
  | levels + 1, v => do
    match ← (← v.member? "node").text? with
    | "logical" =>
      let op ← Connective.ofKeyword? (← (← v.member? "op").text?)
      let left ← ofJsonWithin? levels (← v.member? "left")
      return .logical op left (← ofJsonWithin? levels (← v.member? "right"))
    | "not" => return .not (← ofJsonWithin? levels (← v.member? "operand")) (← offset? v)
    | "comparison" => return .comparison (← Comparison.ofJson? v)
    | _ => none

/-- **Reads an expression.** -/
def Expr.ofJson? (v : Json) : Option Expr := Expr.ofJsonWithin? v.height v

end RecordQuery
