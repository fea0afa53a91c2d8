import RecordQuery.Model.Registry
import RecordQuery.Schema.Error

/-!
# Consistent registries

A registry is **consistent** when in every model the field names are different, not empty and
without points; every relation leads to a model of the registry, and its default field, if it has
one, is a field of that model and no relation; only relations name a model or a default field; and
every choice lists at least one value.

`Registry.problem?` is the first thing that is wrong, in the order of the models and their fields,
and each field is checked from its name to its values.
-/

namespace RecordQuery

/-- What is wrong with the default field that a relation declares. -/
def defaultProblem? (path target name : String) (m : Model) : Option SchemaError.Cause :=
  match m.field? name with
  | none => some (.unknownDefault name path target)
  | some f => if f.type = .relation then some (.relationDefault name path) else none

/-- What is wrong with the model and the default field that a relation names. -/
def relationProblem? (r : Registry) (path : String) (f : FieldDef) : Option SchemaError.Cause :=
  match f.model with
  | none => some (.missingTarget path)
  | some target =>
    match r.model? target with
    | none => some (.unknownTarget path target)
    | some m =>
      match f.defaultField with
      | none => none
      | some name => defaultProblem? path target name m

/-- What is wrong with a field that is no relation. -/
def valueProblem? (path : String) (f : FieldDef) : Option SchemaError.Cause :=
  if f.model.isSome then some (.strayTarget path)
  else if f.defaultField.isSome then some (.strayDefault path)
  else if f.type = .choice ∧ f.suggestions = [] then some (.noValues path)
  else none

/-- Whether a name can be a segment of a path. -/
def validSegment (name : String) : Bool := !name.isEmpty && !name.toList.contains '.'

/-- **What is wrong with a field** of a model in which the names `seen` came before. -/
def fieldProblem? (r : Registry) (id : String) (seen : List String) (f : FieldDef) :
    Option SchemaError.Cause :=
  let path := id ++ "." ++ f.name
  if !validSegment f.name then some (.invalidName f.name id)
  else if f.name ∈ seen then some (.duplicateField f.name id)
  else if f.type = .relation then relationProblem? r path f
  else valueProblem? path f

/-- The first thing that is wrong with fields of a model. -/
def fieldsProblem? (r : Registry) (id : String) (seen : List String) :
    List FieldDef → Option SchemaError
  | [] => none
  | f :: fs =>
    match fieldProblem? r id seen f with
    | some cause => some (.about (id ++ "." ++ f.name) cause)
    | none => fieldsProblem? r id (f.name :: seen) fs

/-- **The first thing that is wrong with a registry.** -/
def Registry.problem? (r : Registry) : Option SchemaError :=
  r.models.entries.findSome? fun e => fieldsProblem? r e.1 [] e.2.fields

end RecordQuery
