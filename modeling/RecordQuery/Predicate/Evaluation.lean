import RecordQuery.Json.Value
import RecordQuery.Predicate.Translation
import RecordQuery.Text.Lowercase

/-!
# Evaluating predicates

A predicate is applied to a record, which is any JSON value. The values of a field are found by
following its path; an array on the way, at the start or at the end stands for all its items,
however deeply they nest, and a missing member for null (`valuesAt`).

**A comparison matches when one of the values stands in the relation**, and a comparison with
another field when one of the values does so with one of the other field's. The negated
operators match exactly when their positives do not; so they match where there is no value at
all, and no other operator does.

Values are compared in the type of the operand. A number may be given as a text; a text is any text,
number or truth value; a date may be given as a datetime. Two integers of 64 bits that are given as
numbers are compared exactly, and all other numbers as binary64 ones.
-/

namespace RecordQuery

/-! ## The values of a field -/

mutual
/-- **The values that a value stands for**: the items of an array, at every depth, or the value
itself. -/
def flatten : Json → List Json
  | .array items => flattenItems items
  | v => [v]

/-- The values that the items of an array stand for. -/
def flattenItems : List Json → List Json
  | [] => []
  | v :: vs => flatten v ++ flattenItems vs
end

/-- The values behind one name: those of its member, or null. -/
def follow (name : String) (v : Json) : List Json := flatten ((v.member? name).getD .null)

/-- **The values at a path.** -/
def valuesAt (record : Json) (path : List String) : List Json :=
  path.foldl (fun vs name => vs.flatMap (follow name)) (flatten record)

/-- Whether a value is null. -/
def Json.isNull : Json → Bool
  | .null => true
  | _ => false

/-! ## Values in a type -/

/-- A value as an integer of 64 bits that is given as a number. -/
def Json.asInt64? : Json → Option Int
  | .number (.int n) => if fitsInt64 n then some n else none
  | _ => none

/-- A number as a binary64 one. -/
def Json.Number.toBinary64 : Json.Number → Binary64
  | .int n => .ofInt n
  | .float x => x

/-- A scalar that is a number as a binary64 one. -/
def Scalar.toBinary64? : Scalar → Option Binary64
  | .int n => some (.ofInt n)
  | .float x => some x
  | _ => none

/-- **A value as a binary64 number**; a text may hold one. -/
def Json.asNumber? : Json → Option Binary64
  | .number n => some n.toBinary64
  | .string s => (typedNumber? s).bind Scalar.toBinary64?
  | _ => none

/-- **A value as a text**: a text, a number or a truth value. -/
def Json.asText? : Json → Option String
  | .string s => some s
  | .number n => some n.text
  | .bool b => some (if b then "true" else "false")
  | _ => none

/-- A value as a truth value. -/
def Json.asBool? : Json → Option Bool
  | .bool b => some b
  | _ => none

/-- A value as a datetime. -/
def Json.asDateTime? : Json → Option DateTime
  | .string s => readDateTime? s.toList
  | _ => none

/-- **A value as a date**; of a datetime, its day. -/
def Json.asDate? : Json → Option Date
  | .string s =>
    match readDate? s.toList with
    | some d => some d
    | none => (readDateTime? s.toList).map (·.date)
  | _ => none

/-- A value as a number: an integer of 64 bits as such, any other as a binary64 one. -/
def Json.asNumberScalar? (v : Json) : Option Scalar :=
  match v.asInt64? with
  | some n => some (.int n)
  | none => v.asNumber?.map .float

/-- **A value in the type of a field.** -/
def toScalar? (type : FieldType) (v : Json) : Option Scalar :=
  match type with
  | .number => v.asNumberScalar?
  | .text | .choice => v.asText?.map .text
  | .boolean => v.asBool?.map .bool
  | .date => v.asDate?.map .date
  | .datetime => v.asDateTime?.map .datetime
  | .relation => none

/-! ## Comparisons -/

/-- The order of texts by code points. -/
def compareTexts (a b : String) : Ordering :=
  if a < b then .lt else if a = b then .eq else .gt

/-- The order of truth values: false comes first. -/
def compareBools (a b : Bool) : Ordering := compare a.toNat b.toNat

/-- **How a value stands to an operand**, in the type of the operand; `none` if the
value has no such type. -/
def compareValue? (v : Json) : Scalar → Option Ordering
  | .int n =>
    match v.asInt64? with
    | some m => some (compare m n)
    | none => v.asNumber?.bind (·.compare? (.ofInt n))
  | .float x => v.asNumber?.bind (·.compare? x)
  | .text s => v.asText?.map (compareTexts · s)
  | .bool b => v.asBool?.map (compareBools · b)
  | .date d => v.asDate?.map (·.compare d)
  | .datetime t => v.asDateTime?.map (·.compare t)

/-- Whether `part` occurs in a text without a gap. -/
def hasPart (part : List Char) : List Char → Bool
  | [] => part.isEmpty
  | c :: cs => part.isPrefixOf (c :: cs) || hasPart part cs

/-- **Whether a value has an operand as a part**, in any letter case. -/
def containsText (v : Json) : Scalar → Bool
  | .text s =>
    match v.asText? with
    | some t => hasPart (Text.lowercase s.toList) (Text.lowercase t.toList)
    | none => false
  | _ => false

/-- Whether a value stands to an operand as an operator says. -/
def stands (v : Json) (op : Operator) (operand : Scalar) : Bool :=
  match op with
  | .equal | .isIn => compareValue? v operand = some .eq
  | .notEqual | .notIn => compareValue? v operand = some .lt || compareValue? v operand = some .gt
  | .greater => compareValue? v operand = some .gt
  | .greaterEqual => compareValue? v operand = some .gt || compareValue? v operand = some .eq
  | .less => compareValue? v operand = some .lt
  | .lessEqual => compareValue? v operand = some .lt || compareValue? v operand = some .eq
  | .contains => containsText v operand
  | .notContains => !containsText v operand

/-- Whether one of the values stands to the other side of a comparison as an operator says; a list
is compared by equality. -/
def anyStands (record : Json) (vs : List Json) (op : Operator) : Target → Bool
  | .scalar operand => vs.any fun v => stands v op operand
  | .list operands => vs.any fun v => operands.any fun operand => stands v .equal operand
  | .field f =>
    let others := (valuesAt record f.path).filterMap (toScalar? f.type)
    vs.any fun v => others.any fun operand => stands v op operand

/-- **Whether a comparison matches a record.** -/
def comparisonHolds (record : Json) (field : FieldRef) (op : Operator) (target : Target) : Bool :=
  let vs := valuesAt record field.path
  match op.positive? with
  | some positive => !anyStands record vs positive target
  | none => anyStands record vs op target

/-- **Whether a predicate matches a record.** -/
def Predicate.holds (record : Json) : Predicate → Bool
  | .compare field op target => comparisonHolds record field op target
  | .isNull field negated =>
    let vs := valuesAt record field.path
    (vs.isEmpty || vs.any Json.isNull) != negated
  | .nothing => false
  | .and left right => left.holds record && right.holds record
  | .or left right => left.holds record || right.holds record
  | .not operand => !operand.holds record

end RecordQuery
