import RecordQuery.Search
import RecordQuery.Settings.Basic

/-!
# Failures of commands

A command fails for one of seven reasons. Each has a code for programs, a message for users and an
exit status; an error in a query also has its place, which is shown by a caret. Of a file that
cannot be understood it is said that this is so, and not where in the file and why: the readers of
JSON and TOML refuse without a reason.
-/

namespace RecordQuery

/-- **Why a schema file cannot be chosen or used**, before its content is looked at closely. -/
inductive SourceError where
  /-- No schema file is named. -/
  | noFile
  /-- The ending of the file's name says nothing of its form. -/
  | unknownForm (path : String)
  /-- The file defines no models. -/
  | noModels (path : String)
  /-- The file defines several models and none is named. -/
  | severalModels (path : String) (models : List String)
  deriving DecidableEq

/-- The reason in words. -/
def SourceError.message : SourceError → String
  | .noFile =>
    "No schema file. Pass --schema <FILE> or run 'fql config set schema.path <FILE>'"
  | .unknownForm path =>
    "Unsupported schema file " ++ path ++ ": expected a .toml or .json extension"
  | .noModels path => path ++ " defines no models"
  | .severalModels path models =>
    path ++ " defines several models; choose one with --model ("
      ++ String.intercalate ", " models ++ ")"

/-- **Why a command fails.** -/
inductive Failure where
  /-- The query is wrong. -/
  | query (text : String) (e : QueryError)
  /-- The schema is not consistent, or does not have the model. -/
  | schema (e : SchemaError)
  /-- The settings cannot be read or changed. -/
  | settings (e : SettingsError)
  /-- The schema file cannot be chosen or used. -/
  | source (e : SourceError)
  /-- The file of records holds something else. -/
  | records (path kind : String)
  /-- The schema file cannot be read. -/
  | schemaFile (path : String) (e : FileError)
  /-- The file of records cannot be read. -/
  | recordsFile (e : FileError)
  /-- A file is not JSON, or not that of a registry; where and why is not kept. -/
  | json
  /-- A file is not TOML, or not that of a registry; where and why is not kept. -/
  | toml
  deriving DecidableEq

namespace Failure

/-- The code for programs. -/
def code : Failure → String
  | .query _ (.lex _) => "LEX_ERROR"
  | .query _ (.parse _) => "PARSE_ERROR"
  | .query _ (.schema _) => "FIELD_ERROR"
  | .query _ (.translation _) => "TRANSLATION_ERROR"
  | .schema _ => "SCHEMA_ERROR"
  | .settings _ | .source _ => "CONFIG_ERROR"
  | .records _ _ => "DATA_ERROR"
  | .schemaFile _ _ | .recordsFile _ => "IO_ERROR"
  | .json => "JSON_ERROR"
  | .toml => "TOML_ERROR"

/-- The message for users. For a file that cannot be understood it is the beginning of one, behind
which a reader that knows more could go on with a reason. -/
def message : Failure → String
  | .query _ e => e.message
  | .schema e => "schema error: " ++ e.message
  | .settings e => "configuration error: " ++ e.message
  | .source e => "configuration error: " ++ e.message
  | .records path kind =>
    "invalid data: " ++ path ++ " must hold a JSON array of records, found " ++ kind
  | .schemaFile path e => "I/O error: Failed to read schema file " ++ path ++ ": " ++ e.message
  | .recordsFile e => "I/O error: " ++ e.message
  | .json => "serialization error"
  | .toml => "invalid TOML"

/-- The place of the failure in the query. -/
def offset? : Failure → Option Nat
  | .query _ e => e.offset?
  | .schema e => e.offset
  | _ => none

/-- **The exit status.** -/
def exitStatus : Failure → Nat
  | .query _ _ | .records _ _ | .json => 1
  | .schemaFile _ _ | .recordsFile _ => 3
  | .schema _ | .toml => 4
  | .settings _ | .source _ => 5

/-- The JSON form. -/
def toJson (f : Failure) : Json :=
  .object ([("code", .string f.code), ("message", .string f.message)]
    ++ match f.offset? with
      | none => []
      | some n => [("offset", .ofNat n)])

end Failure
end RecordQuery
