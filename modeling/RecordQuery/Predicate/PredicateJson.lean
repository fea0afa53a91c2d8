import RecordQuery.Model.RegistryJson
import RecordQuery.Predicate.Basic

/-!
# Predicates as JSON

The JSON form of a predicate is the text `nothing` or an object with one member that names the
kind of the predicate. Dates and datetimes are texts, and a number that is not finite is null.
`Predicate.ofJson?` reads the form back; there a number that is not finite is given by its name.
-/

namespace RecordQuery

/-- The JSON form of a field. -/
def FieldRef.toJson (f : FieldRef) : Json :=
  .object [("path", .array (f.path.map .string)), ("type", .string f.type.name)]

/-- A value with its kind. -/
def tagged (kind : String) (value : Json) : Json :=
  .object [("type", .string kind), ("value", value)]

/-- The JSON form of a value. -/
def Scalar.toJson : Scalar → Json
  | .int n => tagged "int" (.ofInt n)
  | .float x => tagged "float" (if x.isFinite then .number (.float x) else .null)
  | .text s => tagged "text" (.string s)
  | .bool b => tagged "bool" (.bool b)
  | .date d => tagged "date" (.string (String.ofList d.text))
  | .datetime t => tagged "datetime" (.string (String.ofList t.isoText))

/-- The JSON form of the other side of a comparison. -/
def Target.toJson : Target → Json
  | .scalar v => .object [("scalar", v.toJson)]
  | .list vs => .object [("list", .array (vs.map Scalar.toJson))]
  | .field f => .object [("field", f.toJson)]

/-- **The JSON form of a predicate.** -/
def Predicate.toJson : Predicate → Json
  | .compare field op target =>
    .object [("compare", .object [("field", field.toJson), ("op", .string op.symbol),
      ("value", target.toJson)])]
  | .isNull field negated =>
    .object [("is_null", .object [("field", field.toJson), ("negated", .bool negated)])]
  | .nothing => .string "nothing"
  | .and left right => .object [("and", .array [left.toJson, right.toJson])]
  | .or left right => .object [("or", .array [left.toJson, right.toJson])]
  | .not operand => .object [("not", operand.toJson)]

/-! ## Reading -/

/-- Reads a datetime as JSON gives it: a date, a `T`, a time and an optional fraction. -/
def readIsoDateTime? (cs : List Char) : Option DateTime := do
  let (date, cs) ← Reading.date? cs
  let (hour, cs) ← Reading.part? (← Reading.char? 'T' cs)
  let (minute, cs) ← Reading.part? (← Reading.char? ':' cs)
  let (second, cs) ← Reading.part? (← Reading.char? ':' cs)
  let (fraction, cs) ← Reading.fraction? cs
  if cs.isEmpty then DateTime.ofParts? date hour minute second fraction else none

/-- Reads a field. -/
def FieldRef.ofJson? (v : Json) : Option FieldRef := do
  let path ← (← v.member? "path") |> Json.list? Json.text?
  return ⟨path, ← FieldType.ofJson? (← v.member? "type")⟩

/-- Reads a value. -/
def Scalar.ofJson? (v : Json) : Option Scalar := do
  let value ← v.member? "value"
  match ← (← v.member? "type").text? with
  | "int" => return .int (← value.int64?)
  | "float" => return .float (← value.binary64?)
  | "text" => return .text (← value.text?)
  | "bool" => return .bool (← value.bool?)
  | "date" => return .date (← readDate? (← value.text?).toList)
  | "datetime" => return .datetime (← readIsoDateTime? (← value.text?).toList)
  | _ => none

/-- Reads the other side of a comparison. -/
def Target.ofJson? : Json → Option Target
  | .object [("scalar", v)] => (Scalar.ofJson? v).map .scalar
  | .object [("list", v)] => (Json.list? Scalar.ofJson? v).map .list
  | .object [("field", v)] => (FieldRef.ofJson? v).map .field
  | _ => none

/-- Reads a predicate of at most `levels` levels. -/
def Predicate.ofJsonWithin? : Nat → Json → Option Predicate
  | 0, _ => none
  | levels + 1, v =>
    match v with
    | .string "nothing" => some .nothing
    | .object [("and", .array [left, right])] => do
      return .and (← ofJsonWithin? levels left) (← ofJsonWithin? levels right)
    | .object [("or", .array [left, right])] => do
      return .or (← ofJsonWithin? levels left) (← ofJsonWithin? levels right)
    | .object [("not", operand)] => (ofJsonWithin? levels operand).map .not
    | .object [("is_null", v)] => do
      return .isNull (← FieldRef.ofJson? (← v.member? "field"))
        (← (← v.member? "negated").bool?)
    | .object [("compare", v)] => do
      let op ← Operator.ofSymbol? (← (← v.member? "op").text?)
      return .compare (← FieldRef.ofJson? (← v.member? "field")) op
        (← Target.ofJson? (← v.member? "value"))
    | _ => none

/-- **Reads a predicate.** -/
def Predicate.ofJson? (v : Json) : Option Predicate := ofJsonWithin? v.height v

end RecordQuery
