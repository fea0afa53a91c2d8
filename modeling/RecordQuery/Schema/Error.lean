/-!
# Schema errors

What can be wrong with a registry, with the choice of a root model or with a field path. An error
names the path it is about, where there is one, and the offset in the query, where the path comes
from a query. Two of the causes carry the name that is offered instead of an unknown one.
-/

namespace RecordQuery

/-- Why a schema or a path is refused. -/
inductive SchemaError.Cause where
  /-- The root is no model of the registry. -/
  | unknownModel (name : String) (similar : Option String)
  /-- A field name that is empty or has a point. -/
  | invalidName (name model : String)
  /-- A second field of one name. -/
  | duplicateField (name model : String)
  /-- A relation without a model. -/
  | missingTarget (path : String)
  /-- A relation to a model that does not exist. -/
  | unknownTarget (path target : String)
  /-- A default field that is a relation. -/
  | relationDefault (name path : String)
  /-- A default field that does not exist. -/
  | unknownDefault (name path target : String)
  /-- A model named by a field that is no relation. -/
  | strayTarget (path : String)
  /-- A default field declared by a field that is no relation. -/
  | strayDefault (path : String)
  /-- A choice without values. -/
  | noValues (path : String)
  /-- A path without segments. -/
  | emptyPath
  /-- A segment that names no field of the model at hand. -/
  | unknownField (name model : String) (similar : Option String)
  /-- A field that is no relation, followed by another segment. -/
  | notRelation (path next : String)
  /-- A relation to a model that the options hide. -/
  | hidden (path target : String)
  /-- A path with too many relations. -/
  | tooFar (path : String) (limit : Nat)
  /-- A relation without a default field at the end of a path, and a path to offer instead. -/
  | bareRelation (path target instead : String)
  /-- A path that leads nowhere for no other reason. -/
  | unresolved (path : String)
  deriving DecidableEq

/-- **An error in a schema or a path.** -/
structure SchemaError where
  /-- What is wrong. -/
  cause : SchemaError.Cause
  /-- The path that the error is about. -/
  path : Option String
  /-- The offset of the path in the query. -/
  offset : Option Nat
  deriving DecidableEq

/-- A message with the name to offer, if there is one. -/
def withSimilar (message : String) : Option String → String
  | none => message
  | some s => message ++ ". Did you mean '" ++ s ++ "'?"

/-- What is wrong, in words. -/
def SchemaError.Cause.describe : SchemaError.Cause → String
  | .unknownModel name similar => withSimilar ("unknown model '" ++ name ++ "'") similar
  | .invalidName name model => "invalid field name '" ++ name ++ "' on model '" ++ model ++ "'"
  | .duplicateField name model => "duplicate field '" ++ name ++ "' on model '" ++ model ++ "'"
  | .missingTarget path => "relation '" ++ path ++ "' does not name a target model"
  | .unknownTarget path target =>
    "relation '" ++ path ++ "' targets unknown model '" ++ target ++ "'"
  | .relationDefault name path =>
    "default field '" ++ name ++ "' of relation '" ++ path ++ "' is itself a relation"
  | .unknownDefault name path target =>
    "default field '" ++ name ++ "' of relation '" ++ path ++ "' does not exist on model '"
      ++ target
      ++ "'"
  | .strayTarget path => "only relation fields may name a target model ('" ++ path ++ "')"
  | .strayDefault path => "only relation fields may declare a default field ('" ++ path ++ "')"
  | .noValues path => "choice field '" ++ path ++ "' declares no values"
  | .emptyPath => "empty field path"
  | .unknownField name model similar =>
    withSimilar ("unknown field '" ++ name ++ "' on model '" ++ model ++ "'") similar
  | .notRelation path next =>
    "'" ++ path ++ "' is not a relation, so it cannot be followed by '" ++ next ++ "'"
  | .hidden path target =>
    "'" ++ path ++ "' leads to model '" ++ target ++ "', which is not searchable"
  | .tooFar path limit =>
    "'" ++ path ++ "' exceeds the maximum relation depth of " ++ toString limit
  | .bareRelation path target instead =>
    "'" ++ path ++ "' is a relation to '" ++ target ++ "'; choose one of its fields, e.g. '"
      ++ instead ++ "'"
  | .unresolved path => "unknown field '" ++ path ++ "'"

namespace SchemaError

/-- An error about nothing in particular. -/
def plain (cause : Cause) : SchemaError := ⟨cause, none, none⟩

/-- An error about a path. -/
def about (path : String) (cause : Cause) : SchemaError := ⟨cause, some path, none⟩

/-- The error at an offset of the query. -/
def atOffset (e : SchemaError) (offset : Nat) : SchemaError := { e with offset := some offset }

/-- The message. -/
def message (e : SchemaError) : String := e.cause.describe

end SchemaError
end RecordQuery
