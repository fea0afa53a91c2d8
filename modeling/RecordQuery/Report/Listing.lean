import RecordQuery.Report.Style
import RecordQuery.Schema.Introspection

/-!
# Listing an introspection document

The document as a text for readers: a heading for every model, the searched one first and the others
by name, and a line for every field with its type and what else is known of it. The names of one
model's fields are padded to one width, counted in characters.
-/

namespace RecordQuery.Listing

/-- What a line says about a field. -/
def describe (colours : Bool) (d : FieldDescription) : String :=
  d.type.name
    ++ (match d.relation with
      | none => ""
      | some target => " " ++ Style.link.apply colours ("-> " ++ target))
    ++ (match d.suggestions with
      | none => ""
      | some ss => " [" ++ String.intercalate ", " (ss.map (·.value)) ++ "]")
    ++ (if d.nullable then " " ++ Style.faint.apply colours "nullable" else "")

/-- A name followed by spaces up to a width. -/
def padded (width : Nat) (name : String) : String :=
  name ++ String.ofList (List.replicate (width - name.length) ' ')

/-- The lines of a model's fields. -/
def fieldLines (colours : Bool) (fields : NameMap FieldDescription) : List String :=
  let width := (fields.names.map String.length).foldl max 0
  fields.entries.map fun e =>
    "  " ++ padded width e.1 ++ "  " ++ describe colours e.2 ++ "\n"

/-- The heading and the fields of a model. -/
def modelBlock (colours : Bool) (current : String) (e : String × NameMap FieldDescription) :
    String :=
  let heading := if e.1 = current then e.1 ++ " (searched)" else e.1
  Style.heading.apply colours heading ++ "\n" ++ String.join (fieldLines colours e.2)

/-- The models with the searched one first. -/
def order (d : Introspection) : List (String × NameMap FieldDescription) :=
  d.models.entries.filter (·.1 = d.currentModel) ++ d.models.entries.filter (·.1 ≠ d.currentModel)

/-- **The document as a text.** -/
def render (colours : Bool) (d : Introspection) : String :=
  String.intercalate "\n" ((order d).map (modelBlock colours d.currentModel))

end RecordQuery.Listing
