import RecordQuery.Schema.Consistency
import RecordQuery.Text.Similar
import RecordQuery.Query.Expr

/-!
# Schemas

A **schema** is a consistent registry seen from one of its models, the root. Its fields are the
fields of the root and, through relations, those of other models; the options say which models
relations may enter and how many relations a path may take. So a registry whose models refer to
each other has finitely many fields from any root.

`Schema.walk` collects the fields from the root outwards, and `Schema.fields` lists them by their
dotted paths. In a consistent registry no two fields share a path, so `Schema.find?` looks a path up
as in a map.
-/

namespace RecordQuery

/-- A set of names. -/
abbrev NameSet := NameMap Unit

/-- The set of the names in a list. -/
def NameSet.ofNames (names : List String) : NameSet := NameMap.ofList (names.map (·, ()))

/-- Whether a name is in the set. -/
def NameSet.has (s : NameSet) (name : String) : Bool := (s.get? name).isSome

theorem NameSet.has_iff {s : NameSet} {name : String} : has s name = true ↔ name ∈ s.names :=
  NameMap.isSome_get?_iff

/-- **The set of the names in a list has these names** and no others. -/
theorem NameSet.mem_names_ofNames {names : List String} {name : String} :
    name ∈ (ofNames names).names ↔ name ∈ names := by
  rw [← NameMap.isSome_get?_iff, ofNames, NameMap.get?_ofList_const]
  split <;> simp [*]

/-- **Which fields a schema shows.** -/
structure Options where
  /-- How many relations a path may take. -/
  maxDepth : Nat
  /-- The models that relations may enter; without it, all. -/
  included : Option NameSet
  /-- The models that relations may not enter. -/
  excluded : NameSet
  deriving DecidableEq

namespace Options

/-- Two relations, and no model hidden. -/
def standard : Options := ⟨2, none, .empty⟩

instance : Inhabited Options := ⟨standard⟩

/-- **Whether relations may enter a model.** -/
def allows (o : Options) (model : String) : Bool :=
  !NameSet.has o.excluded model
    && match o.included with
      | none => true
      | some s => NameSet.has s model

variable {model : String}

/-- **A model is allowed** if it is not excluded and, where only some models are
included, is one of these. -/
theorem allows_iff {o : Options} :
    o.allows model = true ↔ model ∉ o.excluded.names ∧ ∀ s ∈ o.included, model ∈ s.names := by
  unfold allows
  rw [Bool.and_eq_true, Bool.not_eq_true', ← NameSet.has_iff, Bool.not_eq_true]
  cases o.included with
  | none => simp
  | some s => simp [NameSet.has_iff]

/-- **The models that are allowed by lists of names**: those of the one list, or all without it,
but for those of the other. -/
theorem allows_ofNames {maxDepth : Nat} {included : Option (List String)} {excluded : List String} :
    allows ⟨maxDepth, included.map .ofNames, .ofNames excluded⟩ model = true
      ↔ model ∉ excluded ∧ ∀ names ∈ included, model ∈ names := by
  rw [allows_iff]
  cases included <;> simp [NameSet.mem_names_ofNames]

end Options

/-- **A field seen from the root.** -/
structure Field where
  /-- The names of the relations taken and of the field itself. -/
  path : List String
  /-- The model that declares the field. -/
  model : String
  /-- The declaration. -/
  definition : FieldDef
  deriving DecidableEq

namespace Field

/-- The names of the path joined by points. -/
def dotted (f : Field) : String := RecordQuery.dotted f.path

/-- The name of the field itself. -/
def name (f : Field) : String := f.path.getLastD ""

/-- The type of the field. -/
def type (f : Field) : FieldType := f.definition.type

/-- What users see: the label, or else the name. -/
def label (f : Field) : String := f.definition.label.getD f.definition.name

/-- How many relations the path takes. -/
def depth (f : Field) : Nat := f.path.length - 1

/-- Whether the field is a relation. -/
def isRelation (f : Field) : Bool := f.type = .relation

/-- **The declared value for what a user typed**: a value itself, or else a label. -/
def choiceValue? (f : Field) (input : String) : Option String :=
  match f.definition.suggestions.find? (·.value = input) with
  | some s => some s.value
  | none => (f.definition.suggestions.find? (·.label = some input)).map (·.value)

end Field

/-- **A consistent registry seen from one of its models.** -/
structure Schema where
  /-- The models. -/
  registry : Registry
  /-- The model that paths start from. -/
  root : String
  /-- Which fields are shown. -/
  options : Options
  /-- The root is a model of the registry. -/
  rooted : (registry.model? root).isSome
  /-- The registry is consistent. -/
  consistent : registry.problem? = none
  deriving DecidableEq

namespace Schema

/-- **The schema of a registry and a root.** The root is checked before the registry. -/
def build (registry : Registry) (root : String) (options : Options) : Except SchemaError Schema :=
  if rooted : (registry.model? root).isSome then
    match consistent : registry.problem? with
    | none => .ok ⟨registry, root, options, rooted, consistent⟩
    | some e => .error e
  else .error (.plain (.unknownModel root (Text.closest? root registry.ids)))

/-- Whether a field is shown: a relation only if the options allow its model. -/
def shows (s : Schema) (f : FieldDef) : Bool :=
  f.type ≠ .relation
    || match f.model with
      | none => false
      | some target => s.options.allows target

/-- The fields of a model that are shown. -/
def shown (s : Schema) (model : String) : List FieldDef :=
  match s.registry.model? model with
  | none => []
  | some m => m.fields.filter s.shows

/-- **The fields of a model and those behind its relations**, for a model that is reached by the
path `before` and from which at most `hops` more relations may be taken. -/
def walkFrom (s : Schema) : (hops : Nat) → (model : String) → (before : List String) → List Field
  | 0, model, before => (s.shown model).map fun f => ⟨before ++ [f.name], model, f⟩
  | hops + 1, model, before =>
    (s.shown model).flatMap fun f =>
      let path := before ++ [f.name]
      ⟨path, model, f⟩ :: f.model.toList.flatMap fun target => s.walkFrom hops target path

/-- The fields from the root outwards. -/
def walk (s : Schema) : List Field := s.walkFrom s.options.maxDepth s.root []

/-- **The fields by dotted path.** -/
def fields (s : Schema) : List Field := s.walk.mergeSort fun a b => a.dotted ≤ b.dotted

/-- The field of a dotted path. -/
def find? (s : Schema) (key : String) : Option Field := s.walk.find? (·.dotted = key)

end Schema
end RecordQuery
