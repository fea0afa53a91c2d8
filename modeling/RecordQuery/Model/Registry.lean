import RecordQuery.Model.FieldType
import RecordQuery.NameMap

/-!
# Models and registries

A **model** lists the fields of one kind of record, and a **registry** the models of one host by
their identifiers. A registry is plain data as a host writes it down, and nothing in it is
checked: a relation may lead nowhere and a name may occur twice. A schema is built of a
consistent registry only.
-/

namespace RecordQuery

/-- **A value that a field suggests.** -/
structure Suggestion where
  /-- The stored value. -/
  value : String
  /-- What users see and may type instead. -/
  label : Option String
  deriving DecidableEq

/-- **A field declared on a model.** -/
structure FieldDef where
  /-- The name. -/
  name : String
  /-- The type. -/
  type : FieldType
  /-- What users see instead of the name. -/
  label : Option String
  /-- Whether the field may hold null. -/
  nullable : Bool
  /-- The values of a choice, or hints for another field. -/
  suggestions : List Suggestion
  /-- The model that a relation leads to. -/
  model : Option String
  /-- The field of that model that stands for the relation itself. -/
  defaultField : Option String
  deriving DecidableEq

namespace FieldDef

/-- A field with a name and a type and nothing else. -/
def plain (name : String) (type : FieldType) : FieldDef := ⟨name, type, none, false, [], none, none⟩

instance : Inhabited FieldDef := ⟨plain "" .text⟩

/-- A choice among values. -/
def choice (name : String) (suggestions : List Suggestion) : FieldDef :=
  { plain name .choice with suggestions }

/-- A relation to a model. -/
def relation (name model : String) : FieldDef := { plain name .relation with model := some model }

end FieldDef

/-- **The fields of one kind of record**, in order of declaration. -/
structure Model where
  /-- The fields. -/
  fields : List FieldDef
  deriving DecidableEq

/-- The first field of a name. -/
def Model.field? (m : Model) (name : String) : Option FieldDef := m.fields.find? (·.name = name)

/-- **The models of a host**, by identifier. -/
structure Registry where
  /-- The models. -/
  models : NameMap Model
  deriving DecidableEq

namespace Registry

/-- The registry without models. -/
def empty : Registry := ⟨.empty⟩

instance : Inhabited Registry := ⟨empty⟩

/-- The registry with one more model, or with another model under an old identifier. -/
def withModel (r : Registry) (id : String) (m : Model) : Registry := ⟨r.models.insert id m⟩

/-- The model of an identifier. -/
def model? (r : Registry) (id : String) : Option Model := r.models.get? id

/-- The identifiers in order. -/
def ids (r : Registry) : List String := r.models.names

end Registry
end RecordQuery
