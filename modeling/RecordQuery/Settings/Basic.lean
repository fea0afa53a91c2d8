import RecordQuery.Files.Basic
import RecordQuery.Json.Decode
import RecordQuery.Json.Shape
import RecordQuery.Text.Lowercase
import RecordQuery.Toml.Writer

/-!
# Settings

Users keep what they do not want to say on every command line: the schema file, the model, the
greatest depth of paths and whether to use colours. Each of the four may be missing. Settings are
kept in a TOML file with a section for the schema and one for the output, and are set one at a
time by a key such as `schema.path`: `Settings.assign` changes the value of its key and no other
(`value?_put`).
-/

namespace RecordQuery

/-- **What users have set.** -/
structure Settings where
  /-- The version of the file's form. -/
  version : Nat
  /-- The schema file. -/
  path : Option String
  /-- The model that is searched. -/
  model : Option String
  /-- How many relations a path may take. -/
  maxDepth : Option Nat
  /-- Whether output is coloured. -/
  colour : Option Bool
  deriving DecidableEq

/-- **Why settings cannot be read or changed.** -/
inductive SettingsError where
  /-- It is not known where settings are kept. -/
  | noPlace
  /-- The file cannot be read. -/
  | unreadable (e : FileError)
  /-- The file does not hold settings; where and why is not kept. -/
  | malformed
  /-- The folder of the file cannot be made. -/
  | noFolder (e : FileError)
  /-- The depth is too great for a file. -/
  | depthOutOfRange
  /-- The file cannot be written. -/
  | unwritable (e : FileError)
  /-- A depth that is no natural number of 64 bits. -/
  | invalidDepth (value : String)
  /-- A switch that is neither on nor off. -/
  | invalidSwitch (value : String)
  /-- A key that there is not. -/
  | unknownKey (key : String)
  deriving DecidableEq

/-- The reason in words; that of a file without settings goes no further than that. -/
def SettingsError.message : SettingsError → String
  | .noPlace => "Could not determine config directory"
  | .unreadable e => "Failed to read config: " ++ e.message
  | .malformed => "Failed to parse config"
  | .noFolder e => "Failed to create config directory: " ++ e.message
  | .depthOutOfRange => "Failed to serialize config: out-of-range value for u64 type"
  | .unwritable e => "Failed to write config: " ++ e.message
  | .invalidDepth value =>
    "Invalid max_depth value '" ++ value ++ "'. Use a non-negative integer"
  | .invalidSwitch value =>
    "Invalid boolean value '" ++ value ++ "'. Use true/false, yes/no, 1/0, or on/off"
  | .unknownKey key =>
    "Unknown config key '" ++ key
      ++ "'. Valid keys: schema.path, schema.model, schema.max_depth, output.color"

namespace Settings

/-- The version of the form that files are written in. -/
def currentVersion : Nat := 1

/-- Nothing is set. -/
def unset : Settings := ⟨currentVersion, none, none, none, none⟩

instance : Inhabited Settings := ⟨unset⟩

/-! ## Keys and values -/

/-- **The four settings.** -/
inductive Key where
  /-- The schema file. -/
  | path
  /-- The model that is searched. -/
  | model
  /-- How many relations a path may take. -/
  | maxDepth
  /-- Whether output is coloured. -/
  | colour
  deriving DecidableEq

/-- The name of a key. -/
def Key.name : Key → String
  | .path => "schema.path"
  | .model => "schema.model"
  | .maxDepth => "schema.max_depth"
  | .colour => "output.color"

/-- The key of a name. -/
def Key.ofName? (name : String) : Option Key :=
  [Key.path, .model, .maxDepth, .colour].find? (·.name = name)

/-- **The value of a setting.** -/
inductive Value where
  /-- A path or a model. -/
  | text (s : String)
  /-- A depth. -/
  | depth (n : Nat)
  /-- A switch. -/
  | switch (b : Bool)
  deriving DecidableEq

/-- What a key is set to. -/
def value? (s : Settings) : Key → Option Value
  | .path => s.path.map .text
  | .model => s.model.map .text
  | .maxDepth => s.maxDepth.map .depth
  | .colour => s.colour.map .switch

/-- A switch in one of its four spellings, in any letter case. -/
def switch? (text : String) : Option Bool :=
  let word := String.ofList (Text.lowercase text.toList)
  if ["true", "yes", "1", "on"].contains word then some true
  else if ["false", "no", "0", "off"].contains word then some false
  else none

/-- **The value that a text means for a key.** -/
def Key.read (key : Key) (text : String) : Except SettingsError Value :=
  match key with
  | .path | .model => .ok (.text text)
  | .maxDepth =>
    match readNat64? text.toList with
    | none => .error (.invalidDepth text)
    | some n => .ok (.depth n)
  | .colour =>
    match switch? text with
    | none => .error (.invalidSwitch text)
    | some b => .ok (.switch b)

/-- The settings with another value of a key; a value of another kind changes nothing. -/
def put (s : Settings) : Key → Value → Settings
  | .path, .text t => { s with path := some t }
  | .model, .text t => { s with model := some t }
  | .maxDepth, .depth n => { s with maxDepth := some n }
  | .colour, .switch b => { s with colour := some b }
  | _, _ => s

/-- **Sets a key by its name to what a text means for it.** -/
def assign (s : Settings) (name text : String) : Except SettingsError Settings :=
  match Key.ofName? name with
  | none => .error (.unknownKey name)
  | some key =>
    match key.read text with
    | .error e => .error e
    | .ok v => .ok (s.put key v)

/-- A key is found by its name. -/
theorem Key.ofName?_name (key : Key) : Key.ofName? key.name = some key := by
  cases key <;> decide

/-- **Setting a key to a value that its text means changes that key alone.** -/
theorem value?_put {key : Key} {text : String} {v : Value} (h : key.read text = .ok v)
    (s : Settings) (other : Key) :
    (s.put key v).value? other = if other = key then some v else s.value? other := by
  cases key <;> simp only [Key.read] at h
  · obtain rfl : Value.text text = v := by simpa using h
    cases other <;> rfl
  · obtain rfl : Value.text text = v := by simpa using h
    cases other <;> rfl
  · split at h
    · simp at h
    · rename_i n _
      obtain rfl : Value.depth n = v := by simpa using h
      cases other <;> rfl
  · split at h
    · simp at h
    · rename_i b _
      obtain rfl : Value.switch b = v := by simpa using h
      cases other <;> rfl

/-! ## The file -/

/-- What is looked at in the section for the schema. -/
def schemaShape : Json.Shape := .record [("path", .whole), ("model", .whole), ("max_depth", .whole)]

/-- What is looked at in the section for the output. -/
def outputShape : Json.Shape := .record [("color", .whole)]

/-- **What is looked at in settings.** -/
def shape : Json.Shape :=
  .record [("version", .whole), ("schema", schemaShape), ("output", outputShape)]

/-- Reads the values of a section that was given as a table, or as an array of all of them. -/
def readSection? (names : List String) : Json → Option (List (Option Json))
  | .array items => if items.length = names.length then some (items.map some) else none
  | v => Json.fields? names v

/-- A value that may be left out. -/
def optional? {α : Type} (read : Json → Option α) : Option Json → Option (Option α)
  | none => some none
  | some v => (read v).map some

/-- The greatest version of a file. -/
def greatestVersion : Nat := 4294967295

/-- Whether the version of a file can be one: a natural number of 32 bits. -/
def version? (v : Json) : Option Nat :=
  match v.nat? with
  | none => none
  | some n => if n ≤ greatestVersion then some n else none

/-- **Reads settings** from the value of a file, of the current version if it names none; every
version is read alike, and names that are not known are passed over. -/
def ofJson? (v : Json) : Option Settings :=
  match Json.fields? shape.names v with
  | some [fileVersion, schema, output] => do
    let version ← Json.withDefault? version? currentVersion fileVersion
    let schema ← Json.withDefault? (readSection? schemaShape.names)
      [none, none, none] schema
    let output ← Json.withDefault? (readSection? outputShape.names) [none] output
    match schema, output with
    | [path, model, maxDepth], [colour] =>
      return ⟨version, ← optional? Json.text? path, ← optional? Json.text? model,
        ← optional? Json.nat? maxDepth, ← optional? Json.bool? colour⟩
    | _, _ => none
  | _ => none

/-- Brings settings to the current version; no version so far means anything else by a key. -/
def migrate (s : Settings) : Settings := { s with version := currentVersion }

/-- The members of settings that are there. -/
def members {α : Type} (name : String) (toJson : α → Json) : Option α → List (String × Json)
  | none => []
  | some x => [(name, toJson x)]

/-- The JSON form of settings. -/
def toJson (s : Settings) : Json :=
  .object [
    ("version", .ofNat s.version),
    ("schema", .object
      (members "path" .string s.path ++ members "model" .string s.model
        ++ members "max_depth" .ofNat s.maxDepth)),
    ("output", .object (members "color" .bool s.colour))]

/-- A line of a file for a setting that is there. -/
def line {α : Type} (name : String) (text : α → String) : Option α → String
  | none => ""
  | some x => name ++ " = " ++ text x ++ "\n"

/-- **The text of a file that holds the settings**; a depth of more than 63 bits has no place in
it. -/
def fileText? (s : Settings) : Option String :=
  if fitsInt64 (s.maxDepth.getD 0) then
    some ("version = " ++ toString s.version ++ "\n\n[schema]\n"
      ++ line "path" Toml.quoted s.path
      ++ line "model" Toml.quoted s.model
      ++ line "max_depth" toString s.maxDepth
      ++ "\n[output]\n"
      ++ line "color" toString s.colour)
  else none

end Settings
end RecordQuery
