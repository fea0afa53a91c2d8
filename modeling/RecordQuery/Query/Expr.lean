import RecordQuery.Number.Shortest
import RecordQuery.Query.Operator
import RecordQuery.Text.Quoted

/-!
# Query expressions

The tree of a query: comparisons of a field with an operand, joined by conjunctions and disjunctions
of two and by negations. Every name, literal, list and negation keeps the offset of its first
character in the query, so that an error found later can point at its place.

`Expr.render` writes a tree back as a query. It puts parentheses around every conjunction and
disjunction and nowhere else, so the written form shows the shape of the tree; lists are written in
brackets and texts in double quotes. The offsets are not part of what is written; `Expr.bare` sets
them all to zero, and two trees that differ in offsets alone have one bare form.
-/

namespace RecordQuery

/-- **A dotted path of names** such as `author.email`. -/
structure NamePath where
  /-- The names, the one nearest to the searched model first. -/
  segments : List String
  /-- The offset of the first character. -/
  offset : Nat
  deriving DecidableEq

/-- The names of a path joined by points. -/
def dotted (segments : List String) : String := String.intercalate "." segments

/-- **The value of a literal** as the query gives it, before the field's type is known. -/
inductive LiteralValue where
  /-- An integer of 64 bits. -/
  | int (n : Int)
  /-- Another number. -/
  | float (x : Binary64)
  /-- A text. -/
  | string (s : String)
  /-- A truth value. -/
  | bool (b : Bool)
  /-- The null value. -/
  | null
  deriving DecidableEq

/-- A literal and its place. -/
structure Literal where
  /-- The value. -/
  value : LiteralValue
  /-- The offset of the first character. -/
  offset : Nat
  deriving DecidableEq

/-- **What a field is compared with.** -/
inductive Operand where
  /-- One literal. -/
  | literal (l : Literal)
  /-- A list of literals; the offset is that of the opening bracket. -/
  | list (items : List Literal) (offset : Nat)
  /-- Another field. -/
  | name (path : NamePath)
  deriving DecidableEq

/-- **A comparison of a field with an operand.** -/
structure Comparison where
  /-- The field. -/
  field : NamePath
  /-- The operator. -/
  op : Operator
  /-- The operand. -/
  value : Operand
  /-- The offset of the comparison, which is that of its field. -/
  offset : Nat
  deriving DecidableEq

/-- The two ways to join expressions. -/
inductive Connective where
  /-- Both hold. -/
  | and
  /-- One of the two holds. -/
  | or
  deriving DecidableEq

/-- **A query expression.** -/
inductive Expr where
  /-- Two expressions joined. -/
  | logical (op : Connective) (left right : Expr)
  /-- The negation of an expression; the offset is that of the keyword. -/
  | not (operand : Expr) (offset : Nat)
  /-- A comparison. -/
  | comparison (c : Comparison)
  deriving DecidableEq

/-- The offset of an operand's first character. -/
def Operand.offset : Operand → Nat
  | .literal l => l.offset
  | .list _ offset => offset
  | .name path => path.offset

/-- The connective as a keyword. -/
def Connective.keyword : Connective → String
  | .and => "and"
  | .or => "or"

namespace Expr

instance : Inhabited Expr := ⟨.comparison ⟨⟨[], 0⟩, .equal, .literal ⟨.null, 0⟩, 0⟩⟩

/-- **Where an expression starts**: at its leftmost comparison or negation. A parenthesis before
that is not part of the tree. -/
def offset : Expr → Nat
  | .logical _ left _ => left.offset
  | .not _ offset => offset
  | .comparison c => c.offset

/-- The comparisons of an expression from left to right. -/
def comparisons : Expr → List Comparison
  | .logical _ left right => left.comparisons ++ right.comparisons
  | .not operand _ => operand.comparisons
  | .comparison c => [c]

end Expr

/-! ## The written form -/

/-- How numbers are written in a query: without exponent, and without a point when they are
whole. -/
def LiteralValue.numberLayout : Layout := ⟨none, none, 0, false, true⟩

/-- A literal as it is written. -/
def LiteralValue.render : LiteralValue → String
  | .int n => String.ofList (intText n)
  | .float x => x.text numberLayout
  | .string s => Text.quote s
  | .bool b => if b then "true" else "false"
  | .null => "null"

/-- An operand as it is written. -/
def Operand.render : Operand → String
  | .literal l => l.value.render
  | .list items _ => "[" ++ String.intercalate ", " (items.map (·.value.render)) ++ "]"
  | .name path => dotted path.segments

/-- A comparison as it is written. -/
def Comparison.render (c : Comparison) : String :=
  dotted c.field.segments ++ " " ++ c.op.symbol ++ " " ++ c.value.render

/-- **An expression as it is written.** -/
def Expr.render : Expr → String
  | .logical op left right => "(" ++ left.render ++ " " ++ op.keyword ++ " " ++ right.render ++ ")"
  | .not operand _ => "not " ++ operand.render
  | .comparison c => c.render

/-! ## Trees without offsets -/

/-- The path at offset zero. -/
def NamePath.bare (p : NamePath) : NamePath := { p with offset := 0 }

/-- The operand with every offset zero. -/
def Operand.bare : Operand → Operand
  | .literal l => .literal { l with offset := 0 }
  | .list items _ => .list (items.map fun l => { l with offset := 0 }) 0
  | .name path => .name path.bare

/-- The comparison with every offset zero. -/
def Comparison.bare (c : Comparison) : Comparison := ⟨c.field.bare, c.op, c.value.bare, 0⟩

/-- **The expression with every offset zero.** -/
def Expr.bare : Expr → Expr
  | .logical op left right => .logical op left.bare right.bare
  | .not operand _ => .not operand.bare 0
  | .comparison c => .comparison c.bare

end RecordQuery
