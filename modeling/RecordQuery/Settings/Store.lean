import RecordQuery.Settings.Basic
import RecordQuery.Files.Path
import RecordQuery.Toml.Reader

/-!
# Where settings are kept

The file of the settings is named by the environment, or lies in the user's folder for settings, or
in the one below the user's home. `Settings.load` takes a file that does not exist for one that sets
nothing, and `Settings.change` sets one key in the file: it reads the file, changes the value, and
writes the whole file again, so that a failure before the writing leaves the file as it was.
-/

namespace RecordQuery

/-- **What the environment says.** -/
structure Environment where
  /-- The file of the settings. -/
  settingsFile : Option String
  /-- The folder for settings of all programs. -/
  settingsFolder : Option String
  /-- The user's home. -/
  home : Option String
  /-- The schema file. -/
  schema : Option String
  deriving DecidableEq

namespace Settings

/-- The file of the settings inside a folder for settings of all programs. -/
def fileIn (folder : String) : String := Path.join (Path.join folder "fql") "config.toml"

/-- **The file of the settings.** -/
def place? (env : Environment) : Except SettingsError String :=
  match env.settingsFile, env.settingsFolder, env.home with
  | some file, _, _ => .ok file
  | none, some folder, _ => .ok (fileIn folder)
  | none, none, some home =>
    if home.isEmpty then .error .noPlace else .ok (fileIn (Path.join home ".config"))
  | none, none, none => .error .noPlace

/-- The settings that a text holds. -/
def ofText? (text : String) : Option Settings := (Toml.readAs? shape text).bind ofJson?

variable {m : Type → Type} [Monad m] [Files m]

/-- **The settings in a file**, brought to the current version. -/
def load (file : String) : m (Except SettingsError Settings) := do
  if ← Files.leads file then
    match ← Files.read file with
    | .error e => return .error (.unreadable e)
    | .ok text =>
      match ofText? text with
      | none => return .error .malformed
      | some s => return .ok s.migrate
  else return .ok unset

/-- **Writes settings to a file**, with the folders on the way. -/
def save (file : String) (s : Settings) : m (Except SettingsError Unit) := do
  match ← Files.makeParents file with
  | .error e => return .error (.noFolder e)
  | .ok () =>
    match s.fileText? with
    | none => return .error .depthOutOfRange
    | some text =>
      match ← Files.write file text with
      | .error e => return .error (.unwritable e)
      | .ok () => return .ok ()

/-- **Sets one key in a file.** -/
def change (file name text : String) : m (Except SettingsError Unit) := do
  match ← load file with
  | .error e => return .error e
  | .ok s =>
    match s.assign name text with
    | .error e => return .error e
    | .ok s => save file s

end Settings
end RecordQuery
