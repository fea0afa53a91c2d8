import RecordQuery.Json.Value

/-!
# Shapes

A reader of files expects values of a certain form and passes over what it does not look
at. A `Shape` says which parts of a value are looked at: a **record** has fields with
names and an order, and can be written as an object or as an array; everything else in
its object is passed over.

What is passed over need not even have a value: a member that nobody looks at may be a number beyond
every magnitude (`Draft.value?`). And a file format may allow more than the values that are read:
`Shape.settle` brings a value of such a format to the form that readers expect.
-/

namespace RecordQuery.Json

/-- **The parts of a value that are looked at.** -/
inductive Shape where
  /-- Everything. -/
  | whole
  /-- The fields of a record, by name or in order. -/
  | record (fields : List (String × Shape))
  /-- The items of an array, all alike. -/
  | items (item : Shape)
  /-- The members of an object, all alike. -/
  | map (value : Shape)
  /-- The name of one of several choices, alone or as the name of an empty value. -/
  | choice

namespace Shape

/-- The names of the fields of a record. -/
def names : Shape → List String
  | .record fields => fields.map (·.1)
  | _ => []

/-- What is looked at in an item of an array; a record is given by its fields in order. -/
def atPosition (s : Shape) (i : Nat) : Shape :=
  match s with
  | .record fields => (fields[i]?.map (·.2)).getD .whole
  | .items item => item
  | _ => .whole

/-- What is looked at in a member of an object, if anything. -/
def ofMember? (s : Shape) (name : String) : Option Shape :=
  match s with
  | .record fields => fields.lookup name
  | .map value => some value
  | _ => some .whole

/-- Whether an array of the shape may hold an item at a position. -/
def reaches (s : Shape) (i : Nat) : Bool :=
  match s with
  | .record fields => i < fields.length
  | _ => true

/-- Whether a value has nothing in it. -/
def isVoid : Json → Bool
  | .array [] => true
  | .object [] => true
  | _ => false

mutual
/-- **The value in the form that readers expect**: an array is cut to the fields of its record,
and a choice that is the name of an empty array or object is the name of null. -/
def settle : Shape → Json → Json
  | s, .array vs => .array (settleItems s 0 vs)
  | .choice, .object [(name, v)] => .object [(name, if isVoid v then .null else v)]
  | s, .object ms => .object (settleMembers s ms)
  | _, v => v

/-- The items of an array from a position on. -/
def settleItems (s : Shape) (i : Nat) : List Json → List Json
  | [] => []
  | v :: vs => if s.reaches i then settle (s.atPosition i) v :: settleItems s (i + 1) vs else []

/-- The members of an object. -/
def settleMembers (s : Shape) : List (String × Json) → List (String × Json)
  | [] => []
  | (name, v) :: ms => (name, settle ((s.ofMember? name).getD .whole) v) :: settleMembers s ms
end

end Shape
end RecordQuery.Json
