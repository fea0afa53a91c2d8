import RecordQuery.Schema.Basic

/-!
# Resolving paths

A path in a query is looked up among the fields of the schema. A path that ends at a relation stands
for the default field of the relation, so a path that resolves always ends at a field with values.

When a path is not found, `Schema.explain` walks it from the root to say where it fails: at a
segment that names no field, at a field that is no relation but is followed by a segment, at a
relation to a hidden model, or at one relation too many.
-/

namespace RecordQuery.Schema

/-- The field that a message offers behind a relation to a model: the first one that is no
relation, or else the first one. -/
def exampleField (s : Schema) (model : String) : String :=
  match s.registry.model? model with
  | none => "id"
  | some m =>
    match m.fields.find? (·.type ≠ .relation), m.fields.head? with
    | some f, _ => f.name
    | none, some f => f.name
    | none, none => "id"

/-- Why a path fails whose segments `walked` led to a model. -/
def explainFrom (s : Schema) (model : String) (walked : List String) :
    List String → SchemaError.Cause
  | [] => .unresolved (dotted walked)
  | segment :: rest =>
    let whole := walked ++ segment :: rest
    match s.registry.model? model with
    | none => .unresolved (dotted whole)
    | some m =>
      match m.field? segment with
      | none =>
        .unknownField segment model (Text.closest? segment (m.fields.map (·.name)))
      | some f =>
        let here := walked ++ [segment]
        match f.model, rest with
        | none, [] => .unresolved (dotted whole)
        | none, next :: _ => .notRelation (dotted here) next
        | some target, rest =>
          if !s.options.allows target then .hidden (dotted here) target
          else if rest ≠ [] ∧ s.options.maxDepth ≤ walked.length then
            .tooFar (dotted whole) s.options.maxDepth
          else s.explainFrom target here rest

/-- **Why a path is not among the fields.** -/
def explain (s : Schema) (path : List String) : SchemaError.Cause := s.explainFrom s.root [] path

/-- The field that a relation at a dotted path stands for. -/
def defaultOf (s : Schema) (key : String) (f : Field) : Except SchemaError Field :=
  match f.definition.defaultField with
  | some name =>
    match s.find? (key ++ "." ++ name) with
    | some field => .ok field
    | none => .error (.about key (.tooFar key s.options.maxDepth))
  | none =>
    let target := f.definition.model.getD ""
    .error (.about key (.bareRelation key target (key ++ "." ++ s.exampleField target)))

/-- **The field with values that a path stands for.** -/
def resolve (s : Schema) (path : List String) : Except SchemaError Field :=
  if path = [] then .error (.plain .emptyPath)
  else
    let key := dotted path
    match s.find? key with
    | none => .error (.about key (s.explain path))
    | some f => if f.isRelation then s.defaultOf key f else .ok f

end RecordQuery.Schema
