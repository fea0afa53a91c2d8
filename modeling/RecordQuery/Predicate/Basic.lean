import RecordQuery.Calendar.Text
import RecordQuery.Model.FieldType
import RecordQuery.Query.Expr

/-!
# Predicates

A **predicate** is a query whose names have been resolved and whose values have the types of the
fields they are compared with. It does not depend on a store: a host turns it into a query of its
own, naming each field by its lookup, or applies it to records as `Predicate.holds` does.

`Predicate.render` writes a predicate in the form of a query. Dates and datetimes are written as
texts, and a whole number that is not an integer keeps a point, so that reading it back gives the
same predicate; the predicate that matches nothing has no form in a query.
-/

namespace RecordQuery

/-- **A field that a predicate reads.** -/
structure FieldRef where
  /-- The names from the searched model to the field. -/
  path : List String
  /-- The type of the field. -/
  type : FieldType
  deriving DecidableEq

namespace FieldRef

/-- The path as it is written in a query. -/
def dotted (f : FieldRef) : String := RecordQuery.dotted f.path

/-- **The name of the field in a store**: the path joined by double underscores. -/
def lookup (f : FieldRef) : String := String.intercalate "__" f.path

end FieldRef

/-- **A value of the type of a field.** -/
inductive Scalar where
  /-- An integer of 64 bits. -/
  | int (n : Int)
  /-- Another number. -/
  | float (x : Binary64)
  /-- A text, or a value of a choice. -/
  | text (s : String)
  /-- A truth value. -/
  | bool (b : Bool)
  /-- A date. -/
  | date (d : Date)
  /-- A datetime. -/
  | datetime (t : DateTime)
  deriving DecidableEq

/-- **What a field is compared with** in a predicate. -/
inductive Target where
  /-- One value. -/
  | scalar (v : Scalar)
  /-- A list of values. -/
  | list (vs : List Scalar)
  /-- Another field of the record. -/
  | field (f : FieldRef)
  deriving DecidableEq

/-- **A filter of records.** -/
inductive Predicate where
  /-- A comparison. -/
  | compare (field : FieldRef) (op : Operator) (target : Target)
  /-- Whether a field is null, or with `negated` whether it is not. -/
  | isNull (field : FieldRef) (negated : Bool)
  /-- No record matches. -/
  | nothing
  /-- Both match. -/
  | and (left right : Predicate)
  /-- One of the two matches. -/
  | or (left right : Predicate)
  /-- The operand does not match. -/
  | not (operand : Predicate)
  deriving DecidableEq

/-! ## The written form -/

/-- How numbers are written in a predicate: without exponent, and with a point when they are
whole and below `10 ^ 15`. -/
def Scalar.numberLayout : Layout := ⟨none, none, 15, false, true⟩

/-- A value as it is written. -/
def Scalar.render : Scalar → String
  | .int n => String.ofList (intText n)
  | .float x => x.text numberLayout
  | .text s => Text.quote s
  | .bool b => if b then "true" else "false"
  | .date d => String.ofList ('"' :: (d.text ++ ['"']))
  | .datetime t => String.ofList ('"' :: (t.text ++ ['"']))

/-- The other side of a comparison as it is written. -/
def Target.render : Target → String
  | .scalar v => v.render
  | .list vs => "[" ++ String.intercalate ", " (vs.map Scalar.render) ++ "]"
  | .field f => f.dotted

/-- **A predicate as it is written.** -/
def Predicate.render : Predicate → String
  | .compare field op target => field.dotted ++ " " ++ op.symbol ++ " " ++ target.render
  | .isNull field negated => field.dotted ++ (if negated then " != null" else " = null")
  | .nothing => "<no match>"
  | .and left right => "(" ++ left.render ++ " and " ++ right.render ++ ")"
  | .or left right => "(" ++ left.render ++ " or " ++ right.render ++ ")"
  | .not operand => "not " ++ operand.render

/-! ## The fields that are read -/

/-- The fields on the other side of a comparison. -/
def Target.fields : Target → List FieldRef
  | .field f => [f]
  | _ => []

/-- **Every field that a predicate reads**, from left to right and with repetitions. -/
def Predicate.fields : Predicate → List FieldRef
  | .compare field _ target => field :: target.fields
  | .isNull field _ => [field]
  | .nothing => []
  | .and left right | .or left right => left.fields ++ right.fields
  | .not operand => operand.fields

end RecordQuery
