/-!
# Comparison operators

The ten operators that may stand between a field and a value, and their symbols. Four of them are
the negations of others (`positive`), and two compare with a list of values (`takesList`).
-/

namespace RecordQuery

/-- **A comparison operator.** -/
inductive Operator where
  /-- Equal. -/
  | equal
  /-- Not equal. -/
  | notEqual
  /-- Greater. -/
  | greater
  /-- Greater or equal. -/
  | greaterEqual
  /-- Less. -/
  | less
  /-- Less or equal. -/
  | lessEqual
  /-- Has the value as a part. -/
  | contains
  /-- Does not have the value as a part. -/
  | notContains
  /-- Equal to one of a list. -/
  | isIn
  /-- Equal to none of a list. -/
  | notIn
  deriving DecidableEq

namespace Operator

instance : Inhabited Operator := ⟨.equal⟩

/-- Every operator. -/
def all : List Operator :=
  [.equal, .notEqual, .greater, .greaterEqual, .less, .lessEqual, .contains, .notContains, .isIn,
   .notIn]

/-- **The operator as it is written in a query.** -/
def symbol : Operator → String
  | .equal => "="
  | .notEqual => "!="
  | .greater => ">"
  | .greaterEqual => ">="
  | .less => "<"
  | .lessEqual => "<="
  | .contains => "~"
  | .notContains => "!~"
  | .isIn => "in"
  | .notIn => "not in"

/-- The operator of a symbol. -/
def ofSymbol? (s : String) : Option Operator := all.find? (·.symbol = s)

/-- A symbol belongs to one operator. -/
theorem ofSymbol?_symbol (op : Operator) : ofSymbol? op.symbol = some op := by
  cases op <;> decide

/-- Whether the operator compares with a list. -/
def takesList : Operator → Bool
  | .isIn | .notIn => true
  | _ => false

/-- The operator that a negated one negates. -/
def positive? : Operator → Option Operator
  | .notEqual => some .equal
  | .notContains => some .contains
  | .notIn => some .isIn
  | _ => none

end Operator
end RecordQuery
