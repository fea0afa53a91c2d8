import RecordQuery.NameMap
import RecordQuery.Number.Shortest

/-!
# JSON values

Records, registries and answers are JSON values. A number keeps its kind: an **integer** of 64 bits,
with or without a sign, or a **binary64** number. An object keeps its members in the order they were
written and as often as they were written; `canonical` sorts the members of every object by name and
keeps the last of each name, which is the reading of an object as a map.
-/

namespace RecordQuery

/-- **A number of a JSON value.** -/
inductive Json.Number where
  /-- An integer that fits 64 bits, with or without a sign. -/
  | int (n : Int)
  /-- Any other number. -/
  | float (x : Binary64)
  deriving DecidableEq

/-- **A JSON value.** -/
inductive Json where
  /-- The null value. -/
  | null
  /-- A truth value. -/
  | bool (b : Bool)
  /-- A number. -/
  | number (n : Json.Number)
  /-- A text. -/
  | string (s : String)
  /-- An array. -/
  | array (items : List Json)
  /-- An object, with its members as written. -/
  | object (members : List (String × Json))

namespace Json

instance : Inhabited Json := ⟨.null⟩

/-- The value of an integer. -/
def ofInt (n : Int) : Json := .number (.int n)

/-- The value of a natural number. -/
def ofNat (n : Nat) : Json := .number (.int n)

/-- A text or, without one, null. -/
def ofText? : Option String → Json
  | none => .null
  | some s => .string s

/-- **The members of an object read as a map**: sorted by name, the last of each name kept. -/
def mapMembers (members : List (String × Json)) : List (String × Json) :=
  members.foldl (fun ms m => insertEntry m.1 m.2 ms) []

mutual
/-- **The value with every object read as a map.** -/
def canonical : Json → Json
  | .array items => .array (canonicalItems items)
  | .object members => .object (mapMembers (canonicalMembers members))
  | v => v

/-- The items of an array, each canonical. -/
def canonicalItems : List Json → List Json
  | [] => []
  | v :: vs => canonical v :: canonicalItems vs

/-- The members of an object, each canonical. -/
def canonicalMembers : List (String × Json) → List (String × Json)
  | [] => []
  | (k, v) :: ms => (k, canonical v) :: canonicalMembers ms
end

mutual
/-- How many values nest inside one another. -/
def height : Json → Nat
  | .array items => heightItems items + 1
  | .object members => heightMembers members + 1
  | _ => 1

/-- The greatest height among items. -/
def heightItems : List Json → Nat
  | [] => 0
  | v :: vs => max (height v) (heightItems vs)

/-- The greatest height among members. -/
def heightMembers : List (String × Json) → Nat
  | [] => 0
  | (_, v) :: ms => max (height v) (heightMembers ms)
end

/-- The member of a name, for an object without repeated names. -/
def member? (v : Json) (name : String) : Option Json :=
  match v with
  | .object members => members.lookup name
  | _ => none

/-- How numbers are written in JSON: positionally for exponents from -5 to 15 and with a point, in
scientific notation otherwise and with a signed exponent. -/
def numberLayout : Layout := ⟨some (-5), some 15, 16, true, false⟩

/-- **The text of a number**; a number that is not finite has none and is written as null. -/
def Number.text : Number → String
  | .int n => String.ofList (intText n)
  | .float x => if x.isFinite then x.text numberLayout else "null"

end Json
end RecordQuery
