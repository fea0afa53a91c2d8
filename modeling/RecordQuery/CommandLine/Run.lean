import RecordQuery.CommandLine.Completion
import RecordQuery.CommandLine.Source
import RecordQuery.Json.Writer
import RecordQuery.Query.ExprJson
import RecordQuery.Query.Outline
import RecordQuery.Report.Caret
import RecordQuery.Report.Explanation
import RecordQuery.Report.Listing
import RecordQuery.Settings.Store

/-!
# Running commands

`Invocation.run` is what a command line does: it reads and writes files, and ends in an `Output`
or a `Failure`. Commands that need no schema run at once; the others first load the settings and
the schema that these and the command line name. With the option for JSON an answer is written in
JSON whatever else is asked for.
-/

namespace RecordQuery

/-- **What a command writes.** -/
structure Output where
  /-- The answer. -/
  answer : String
  /-- What is said beside the answer. -/
  remarks : String
  deriving DecidableEq

namespace Output

/-- Nothing. -/
def silent : Output := ⟨"", ""⟩

/-- An answer alone. -/
def text (answer : String) : Output := ⟨answer, ""⟩

/-- An answer that ends in a line break. -/
def line (answer : String) : Output := text (answer ++ "\n")

/-- An answer in JSON. -/
def json (v : Json) : Output := line v.pretty

end Output

namespace Invocation

/-- An answer in JSON or, unless less is asked for, as a text. -/
def answer (i : Invocation) (json : Json) (text : Output) : Output :=
  if i.json then .json json else if i.quiet then .silent else text

/-- **The answer to a query's tree.** -/
def runParse (i : Invocation) (query : String) : Except Failure Output :=
  match parse query with
  | .error e => .error (.query query (.ofSyntax e))
  | .ok e => .ok (i.answer e.toJson (.line (if i.verbose then e.outline.text else e.render)))

/-- **The answer to the check of a query.** -/
def runCheck (i : Invocation) (s : Schema) (query : String) : Except Failure Output :=
  match search s query with
  | .error e => .error (.query query e)
  | .ok p =>
    let json := Json.object [("model", .string s.root), ("query", .string query),
      ("predicate", (p.map Predicate.toJson).getD .null)]
    .ok (i.answer json.canonical (.line (explain i.verbose p)))

/-- The listing of a schema. -/
def runIntrospect (i : Invocation) (colours : Bool) (s : Schema) : Output :=
  i.answer s.introspection.toJson (.text (Listing.render colours s.introspection))

/-- What a value is, for a file that should hold an array. -/
def kindOf : Json → String
  | .null => "null"
  | .bool _ => "a boolean"
  | .number _ => "a number"
  | .string _ => "a string"
  | .array _ => "an array"
  | .object _ => "an object"

/-- The records in the content of a file; a record's objects are read as maps. -/
def readRecords (path content : String) : Except Failure (List Json) :=
  match (Json.read? content).map Json.canonical with
  | none => .error .json
  | some (.array records) => .ok records
  | some v => .error (.records path (kindOf v))

/-- **The records that a query shows**, one a line, and remarks: a warning, and unless less is asked
for how many records there are. -/
def showRecords (i : Invocation) (colours : Bool) (o : Outcome) (records : List Json) : Output :=
  let shown := o.filter records
  if i.json then
    .json (Json.object [("search", o.toJson), ("count", .ofNat shown.length),
      ("records", .array shown)]).canonical
  else
    let warning := match o.warning? with
      | none => ""
      | some w => Style.warning.apply colours "Warning:" ++ " " ++ w ++ "\n"
    let count :=
      if i.quiet then ""
      else toString shown.length ++ " of " ++ toString records.length ++ " records matched\n"
    ⟨String.join (shown.map fun r => r.canonical.compact ++ "\n"), warning ++ count⟩

/-- The settings as a text; `file` is where they are kept. -/
def settingsText (colours there : Bool) (file : String) (s : Settings) : String :=
  let entry {α : Type} (name : String) (text : α → String) : Option α → String
    | none => ""
    | some x => "  " ++ name ++ ": " ++ text x ++ "\n"
  Style.heading.apply colours "Configuration" ++ "\n\nFile: " ++ file ++ "\nExists: "
    ++ toString there ++ "\n\n"
    ++ if there then
      "[schema]\n" ++ entry "path" id s.path ++ entry "model" id s.model
        ++ entry "max_depth" toString s.maxDepth ++ "\n[output]\n"
          ++ entry "color" toString s.colour
    else "(No config file exists. Run 'fql config set <key> <value>' to create one.)\n"

/-- What is said when there is no command. -/
def introduction : String :=
  "fql - search-engine style queries over model schemas\nUse --help for usage information\n"

variable {m : Type → Type} [Monad m] [Files m]

/-- The settings and the file where they are kept. -/
def loadSettings (env : Environment) : m (Except Failure (String × Settings)) := do
  match Settings.place? env with
  | .error e => return .error (.settings e)
  | .ok file =>
    match ← Settings.load file with
    | .error e => return .error (.settings e)
    | .ok s => return .ok (file, s)

/-- Shows the settings. -/
def runShowSettings (i : Invocation) (env : Environment) : m (Except Failure Output) := do
  match ← loadSettings env with
  | .error e => return .error e
  | .ok (file, s) =>
    let there ← Files.leads file
    let json := Json.object [("path", .string file), ("exists", .bool there), ("config", s.toJson)]
    return .ok (i.answer json.canonical (.text (settingsText (!i.noColour) there file s)))

/-- **Changes a setting.** -/
def runChangeSetting (i : Invocation) (env : Environment) (key value : String) :
    m (Except Failure Output) := do
  match Settings.place? env with
  | .error e => return .error (.settings e)
  | .ok file =>
    match ← Settings.change file key value with
    | .error e => return .error (.settings e)
    | .ok () =>
      let json := Json.object [("status", .string "success"), ("key", .string key),
        ("value", .string value), ("path", .string file)]
      return .ok (i.answer json.canonical (.line ("Set " ++ key ++ " = " ++ value)))

/-- Shows where settings are kept, whether or not less is asked for. -/
def runSettingsPath (i : Invocation) (env : Environment) : m (Except Failure Output) := do
  match Settings.place? env with
  | .error e => return .error (.settings e)
  | .ok file =>
    let there ← Files.leads file
    let json := Json.object [("path", .string file), ("exists", .bool there)]
    return .ok (if i.json then .json json.canonical else .line file)

/-- Shows the records of a file that a query matches. -/
def runFilter (i : Invocation) (colours : Bool) (s : Schema) (query data : String) :
    m (Except Failure Output) := do
  match ← Files.read data with
  | .error e => return .error (.recordsFile e)
  | .ok content =>
    return (readRecords data content).map fun records =>
      i.showRecords colours (.ofQuery s query) records

/-- Goes on with the schema of a command and whether its output is coloured. -/
def withSchema (i : Invocation) (env : Environment)
    (go : Schema → Bool → m (Except Failure Output)) : m (Except Failure Output) := do
  match ← loadSettings env with
  | .error e => return .error e
  | .ok (_, settings) =>
    match Source.choose i settings with
    | .error e => return .error (.source e)
    | .ok source =>
      match ← source.load with
      | .error e => return .error e
      | .ok s => go s (!i.noColour && settings.colour ≠ some false)

/-- **Runs a command.** -/
def run (i : Invocation) (env : Environment) : m (Except Failure Output) :=
  match i.command with
  | .nothing => return .ok (if i.quiet then .silent else .text introduction)
  | .parse query => return i.runParse query
  | .showSettings => i.runShowSettings env
  | .changeSetting key value => i.runChangeSetting env key value
  | .settingsPath => i.runSettingsPath env
  | .completions shell => return .ok (.text shell.script)
  | .check query => i.withSchema env fun s _ => return i.runCheck s query
  | .introspect => i.withSchema env fun s colours => return .ok (i.runIntrospect colours s)
  | .filter query data => i.withSchema env fun s colours => i.runFilter colours s query data

/-- The line of the query with a caret under the place of a failure. -/
def caret? (i : Invocation) : Failure → Option String
  | .query text e => e.offset?.map fun offset => renderCaret text offset (!i.noColour)
  | _ => none

end Invocation
end RecordQuery
