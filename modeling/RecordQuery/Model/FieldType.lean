import RecordQuery.Query.Operator

/-!
# Field types

The type of a field says which operators it may be compared with and what a literal must be to be
compared with it. A relation leads to another model and has no values of its own, so no operator
applies to it.
-/

namespace RecordQuery

/-- **The type of a field.** -/
inductive FieldType where
  /-- Free text. -/
  | text
  /-- Whole or other numbers. -/
  | number
  /-- Truth values. -/
  | boolean
  /-- Calendar dates. -/
  | date
  /-- Dates with a time of day. -/
  | datetime
  /-- One of a declared list of values. -/
  | choice
  /-- A link to another model. -/
  | relation
  deriving DecidableEq

namespace FieldType

instance : Inhabited FieldType := ⟨.text⟩

/-- Every field type. -/
def all : List FieldType := [.text, .number, .boolean, .date, .datetime, .choice, .relation]

/-- The name of a type. -/
def name : FieldType → String
  | .text => "text"
  | .number => "number"
  | .boolean => "boolean"
  | .date => "date"
  | .datetime => "datetime"
  | .choice => "choice"
  | .relation => "relation"

/-- The type of a name. -/
def ofName? (s : String) : Option FieldType := all.find? (·.name = s)

/-- A name belongs to one type. -/
theorem ofName?_name (t : FieldType) : ofName? t.name = some t := by
  cases t <;> decide

/-- **The operators that a field of the type may be compared with**, in the order they are
listed. -/
def operators : FieldType → List Operator
  | .text => Operator.all
  | .number | .date | .datetime =>
    [.equal, .notEqual, .greater, .greaterEqual, .less, .lessEqual, .isIn, .notIn]
  | .boolean => [.equal, .notEqual]
  | .choice => [.equal, .notEqual, .isIn, .notIn]
  | .relation => []

/-- **Whether fields of two types may be compared with each other**: fields of one type, and texts
with choices. -/
def comparableWith : FieldType → FieldType → Bool
  | .text, .choice | .choice, .text => true
  | t, u => t = u

end FieldType
end RecordQuery
