import RecordQuery.CommandLine.Arguments
import RecordQuery.CommandLine.Failure
import RecordQuery.Files.Path
import RecordQuery.Json.Reader
import RecordQuery.Model.RegistryJson
import RecordQuery.Schema.Basic
import RecordQuery.Toml.Reader

/-!
# The schema of a command

A command finds its schema in a file that the command line, the environment or the settings name.
The ending of the file's name says whether it is TOML or JSON. A file that defines one model
needs no choice of a model.
-/

namespace RecordQuery

/-- **Where the schema of a command comes from.** -/
structure Source where
  /-- The schema file. -/
  path : String
  /-- The model that is searched. -/
  model : Option String
  /-- How many relations a path may take. -/
  maxDepth : Nat
  deriving DecidableEq

namespace Source

/-- **The source that the command line and the settings name**; the command line counts first. -/
def choose (i : Invocation) (s : Settings) : Except SourceError Source :=
  match i.schema.or s.path with
  | none => .error .noFile
  | some path =>
    .ok ⟨path, i.model.or s.model, (i.maxDepth.or s.maxDepth).getD Options.standard.maxDepth⟩

/-- The lower case of the letters from A to Z. -/
def lowerLatin (s : String) : String := String.ofList (s.toList.map Char.toLower)

/-- **The registry in the content of a file.** -/
def readRegistry (path content : String) : Except Failure Registry :=
  match (Path.ofText path).extension?.map lowerLatin with
  | some "toml" =>
    match (Toml.readAs? Registry.shape content).bind Registry.ofJson? with
    | none => .error .toml
    | some r => .ok r
  | some "json" =>
    match (Json.readAs? Registry.shape content).bind Registry.ofJson? with
    | none => .error .json
    | some r => .ok r
  | _ => .error (.source (.unknownForm path))

/-- **The model that is searched**: the one that is named, or else the only one. -/
def pickModel (s : Source) (r : Registry) : Except SourceError String :=
  match s.model, r.ids with
  | some model, _ => .ok model
  | none, [] => .error (.noModels s.path)
  | none, [only] => .ok only
  | none, several => .error (.severalModels s.path several)

/-- The schema of a source whose file has the given content. -/
def schema (s : Source) (content : String) : Except Failure Schema := do
  let registry ← readRegistry s.path content
  match s.pickModel registry with
  | .error e => throw (.source e)
  | .ok model =>
    match Schema.build registry model { Options.standard with maxDepth := s.maxDepth } with
    | .error e => throw (.schema e)
    | .ok schema => return schema

/-- **The schema of a source.** -/
def load {m : Type → Type} [Monad m] [Files m] (s : Source) : m (Except Failure Schema) := do
  match ← Files.read s.path with
  | .error e => return .error (.schemaFile s.path e)
  | .ok content => return s.schema content

end Source
end RecordQuery
