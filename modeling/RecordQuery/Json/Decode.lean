import RecordQuery.Json.Value

/-!
# Taking values out of JSON

A structure is written as an object with one member a field, or as an array with the fields in
order. `fields?` brings both to one form: for every expected field the value that is given for it,
if any. A name that is not expected is ignored; an expected one may be given only once, and an
array may not be longer than the structure.
-/

namespace RecordQuery.Json

/-- The values given for a name. -/
def valuesOf (name : String) (members : List (String × Json)) : List Json :=
  members.filterMap fun m => if m.1 = name then some m.2 else none

/-- The one value given for a name, if any; two are an error. -/
def once? (name : String) (members : List (String × Json)) : Option (Option Json) :=
  match valuesOf name members with
  | [] => some none
  | [v] => some (some v)
  | _ => none

/-- **The values given for the fields of a structure**, in the order of the expected names. -/
def fields? (names : List String) : Json → Option (List (Option Json))
  | .object members => names.mapM fun name => once? name members
  | .array items =>
    if items.length ≤ names.length then
      some (items.map some ++ List.replicate (names.length - items.length) none)
    else none
  | _ => none

/-- A text. -/
def text? : Json → Option String
  | .string s => some s
  | _ => none

/-- A truth value. -/
def bool? : Json → Option Bool
  | .bool b => some b
  | _ => none

/-- A text, or null for none. -/
def optionalText? : Json → Option (Option String)
  | .null => some none
  | .string s => some (some s)
  | _ => none

/-- An array whose items all have a meaning. -/
def list? {α : Type} (read : Json → Option α) : Json → Option (List α)
  | .array items => items.mapM read
  | _ => none

/-- **An object read as a map**; of several members with one name the last counts. -/
def map? {α : Type} (read : Json → Option α) : Json → Option (NameMap α)
  | .object members => (members.mapM fun m => (read m.2).map (m.1, ·)).map NameMap.ofList
  | _ => none

/-- A value that must be given. -/
def required? {α : Type} (read : Json → Option α) : Option Json → Option α
  | none => none
  | some v => read v

/-- A value that has a default. -/
def withDefault? {α : Type} (read : Json → Option α) (default : α) : Option Json → Option α
  | none => some default
  | some v => read v

/-- An integer of 64 bits. -/
def int64? : Json → Option Int
  | .number (.int n) => if fitsInt64 n then some n else none
  | _ => none

/-- A natural number. -/
def nat? : Json → Option Nat
  | .number (.int n) => if 0 ≤ n then some n.toNat else none
  | _ => none

/-- A number as a binary64 one, or the name of one that is not finite. -/
def binary64? : Json → Option Binary64
  | .number (.int n) => some (.ofInt n)
  | .number (.float x) => some x
  | .string "NaN" => some .nan
  | .string "inf" => some (.infinity false)
  | .string "-inf" => some (.infinity true)
  | _ => none

end RecordQuery.Json
