import RecordQuery.Model.RegistryJson
import RecordQuery.Schema.Basic

/-!
# Introspection

An **introspection document** tells an editor which fields a query may name: for every model
that a schema reaches, its fields with type, values and, for a relation, the model it leads
to. A relation is listed only when its model is in the document too, so following the
document never leaves it.

The document keeps an empty list of values apart from a missing one; a schema writes only lists that
have values.
-/

namespace RecordQuery

/-- **One field of a document.** -/
structure FieldDescription where
  /-- The type. -/
  type : FieldType
  /-- Whether the field may hold null. -/
  nullable : Bool
  /-- The values it lists. -/
  suggestions : Option (List Suggestion)
  /-- The model that a relation leads to. -/
  relation : Option String
  deriving DecidableEq

/-- **The fields that queries on a model may name**, model by model. -/
structure Introspection where
  /-- The searched model. -/
  currentModel : String
  /-- The fields of every model. -/
  models : NameMap (NameMap FieldDescription)
  deriving DecidableEq

namespace Schema

/-- The models that a schema reaches: the root and those that declare a field. -/
def reached (s : Schema) : List String := s.root :: s.fields.map (·.model)

/-- A field as the document describes it. -/
def describe (f : Field) : FieldDescription :=
  { type := f.type
    nullable := f.definition.nullable
    suggestions := if f.definition.suggestions.isEmpty then none else some f.definition.suggestions
    relation := f.definition.model }

/-- Whether the document lists a field: a relation only if it reaches its model. -/
def lists (reached : List String) (f : Field) : Bool :=
  match f.definition.model with
  | none => true
  | some target => reached.contains target

/-- Puts a field into the document. -/
def addField (models : NameMap (NameMap FieldDescription)) (f : Field) :
    NameMap (NameMap FieldDescription) :=
  models.insert f.model (((models.get? f.model).getD .empty).insert f.name (describe f))

/-- **The introspection document of a schema.** -/
def introspection (s : Schema) : Introspection :=
  let reached := s.reached
  let empty := NameMap.ofList (reached.map (·, NameMap.empty))
  ⟨s.root, (s.fields.filter (lists reached)).foldl addField empty⟩

end Schema

/-! ## As JSON -/

/-- The JSON form of a field's description. -/
def FieldDescription.toJson (d : FieldDescription) : Json :=
  .object ([("type", .string d.type.name), ("nullable", .bool d.nullable)]
    ++ (match d.suggestions with
      | none => []
      | some ss => [("suggestions", suggestionsJson ss)])
    ++ optionalMember "relation" d.relation)

/-- The JSON form of the fields of one model. -/
def descriptionsJson (fields : NameMap FieldDescription) : Json :=
  .object (fields.entries.map fun e => (e.1, e.2.toJson))

/-- **The JSON form of a document.** -/
def Introspection.toJson (d : Introspection) : Json :=
  .object [("current_model", .string d.currentModel),
    ("models", .object (d.models.entries.map fun e => (e.1, descriptionsJson e.2)))]

/-- Reads a list of values, or null for none. -/
def optionalSuggestions? : Json → Option (Option (List Suggestion))
  | .null => some none
  | v => (Json.list? Suggestion.ofJson? v).map some

/-- Reads a field's description. -/
def FieldDescription.ofJson? (v : Json) : Option FieldDescription :=
  match Json.fields? ["type", "nullable", "suggestions", "relation"] v with
  | some [type, nullable, suggestions, relation] => do
    return {
      type := ← Json.required? FieldType.ofJson? type
      nullable := ← Json.required? Json.bool? nullable
      suggestions := ← Json.withDefault? optionalSuggestions? none suggestions
      relation := ← Json.withDefault? Json.optionalText? none relation }
  | _ => none

/-- **Reads a document.** -/
def Introspection.ofJson? (v : Json) : Option Introspection :=
  match Json.fields? ["current_model", "models"] v with
  | some [current, models] => do
    return {
      currentModel := ← Json.required? Json.text? current
      models := ← Json.required? (Json.map? (Json.map? FieldDescription.ofJson?)) models }
  | _ => none

end RecordQuery
