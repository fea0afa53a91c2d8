import RecordQuery.Json.Decode
import RecordQuery.Json.Shape
import RecordQuery.Model.Registry

/-!
# Registries as JSON

A registry is an object with the member `models`, which maps identifiers to models; a model is an
object with the member `fields`. What a field does not have is left out, except that `nullable` is
always written. In reading, `name` and `type` must be given, and everything else may be left out.
`Registry.shape` says what is looked at in a file.
-/

namespace RecordQuery

/-- A member for a text that may be missing. -/
def optionalMember (name : String) : Option String → List (String × Json)
  | none => []
  | some s => [(name, .string s)]

/-- The JSON form of a suggestion. -/
def Suggestion.toJson (s : Suggestion) : Json :=
  .object (("value", .string s.value) :: optionalMember "label" s.label)

/-- The JSON form of a list of suggestions. -/
def suggestionsJson (ss : List Suggestion) : Json := .array (ss.map Suggestion.toJson)

/-- The JSON form of a field. -/
def FieldDef.toJson (f : FieldDef) : Json :=
  .object ([("name", .string f.name), ("type", .string f.type.name)]
    ++ optionalMember "label" f.label
    ++ [("nullable", .bool f.nullable)]
    ++ (if f.suggestions.isEmpty then [] else [("suggestions", suggestionsJson f.suggestions)])
    ++ optionalMember "model" f.model
    ++ optionalMember "default_field" f.defaultField)

/-- The JSON form of a model. -/
def Model.toJson (m : Model) : Json := .object [("fields", .array (m.fields.map FieldDef.toJson))]

/-- **The JSON form of a registry.** -/
def Registry.toJson (r : Registry) : Json :=
  .object [("models", .object (r.models.entries.map fun e => (e.1, e.2.toJson)))]

/-! ## Reading -/

/-- Reads a type: its name, or an object with null under its name. -/
def FieldType.ofJson? : Json → Option FieldType
  | .string s => ofName? s
  | .object [(s, .null)] => ofName? s
  | _ => none

/-- What is looked at in a suggestion. -/
def Suggestion.shape : Json.Shape := .record [("value", .whole), ("label", .whole)]

/-- Reads a suggestion. -/
def Suggestion.ofJson? (v : Json) : Option Suggestion :=
  match Json.fields? shape.names v with
  | some [value, label] => do
    return ⟨← Json.required? Json.text? value, ← Json.withDefault? Json.optionalText? none label⟩
  | _ => none

/-- What is looked at in a field. -/
def FieldDef.shape : Json.Shape :=
  .record [("name", .whole), ("type", .choice), ("label", .whole), ("nullable", .whole),
    ("suggestions", .items Suggestion.shape), ("model", .whole), ("default_field", .whole)]

/-- Reads a field. -/
def FieldDef.ofJson? (v : Json) : Option FieldDef :=
  match Json.fields? shape.names v with
  | some [name, type, label, nullable, suggestions, model, defaultField] => do
    return {
      name := ← Json.required? Json.text? name
      type := ← Json.required? FieldType.ofJson? type
      label := ← Json.withDefault? Json.optionalText? none label
      nullable := ← Json.withDefault? Json.bool? false nullable
      suggestions := ← Json.withDefault? (Json.list? Suggestion.ofJson?) [] suggestions
      model := ← Json.withDefault? Json.optionalText? none model
      defaultField := ← Json.withDefault? Json.optionalText? none defaultField }
  | _ => none

/-- What is looked at in a model. -/
def Model.shape : Json.Shape := .record [("fields", .items FieldDef.shape)]

/-- Reads a model. -/
def Model.ofJson? (v : Json) : Option Model :=
  match Json.fields? shape.names v with
  | some [fields] => (Json.withDefault? (Json.list? FieldDef.ofJson?) [] fields).map Model.mk
  | _ => none

/-- **What is looked at in a registry.** -/
def Registry.shape : Json.Shape := .record [("models", .map Model.shape)]

/-- **Reads a registry.** -/
def Registry.ofJson? (v : Json) : Option Registry :=
  match Json.fields? shape.names v with
  | some [models] => (Json.withDefault? (Json.map? Model.ofJson?) .empty models).map Registry.mk
  | _ => none

end RecordQuery
