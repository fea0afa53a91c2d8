/-!
# Commands and their arguments

The commands of the program form a tree: the program itself, its commands, and the commands of
`config`. Each takes arguments in fixed **slots**: options are found by a name or a letter and may
stand anywhere, the others by their position. Seven options belong to every command.
-/

namespace RecordQuery

/-- **A command.** -/
inductive Verb where
  /-- The program without a command. -/
  | program
  /-- Shows the tree of a query. -/
  | parse
  /-- Shows the predicate of a query. -/
  | check
  /-- Lists the fields. -/
  | introspect
  /-- Shows the records that a query matches. -/
  | filter
  /-- Shows or changes settings. -/
  | config
  /-- Shows the settings. -/
  | configShow
  /-- Changes a setting. -/
  | configSet
  /-- Shows where settings are kept. -/
  | configPath
  /-- Writes a script that completes command lines. -/
  | completions
  deriving DecidableEq

/-- **A place for an argument.** -/
inductive Slot where
  /-- Say more. -/
  | verbose
  /-- Say less. -/
  | quiet
  /-- Answer in JSON. -/
  | json
  /-- Answer without colours. -/
  | noColour
  /-- The schema file. -/
  | schema
  /-- The model that is searched. -/
  | model
  /-- How many relations a path may take. -/
  | maxDepth
  /-- Explain the command. -/
  | help
  /-- Name the version. -/
  | version
  /-- The file of records. -/
  | data
  /-- The query. -/
  | query
  /-- The key of a setting. -/
  | key
  /-- The value of a setting. -/
  | value
  /-- The shell. -/
  | shell
  deriving DecidableEq

namespace Verb

/-- The commands inside a command, by their names and short names. -/
def commands : Verb → List (String × Verb)
  | .program =>
    [("parse", .parse), ("p", .parse), ("check", .check), ("c", .check),
      ("introspect", .introspect), ("filter", .filter), ("f", .filter), ("config", .config),
      ("completions", .completions)]
  | .config => [("show", .configShow), ("set", .configSet), ("path", .configPath)]
  | _ => []

/-- The command of a name inside a command. -/
def command? (v : Verb) (name : String) : Option Verb := v.commands.lookup name

/-- The slots that are found by position. -/
def positions : Verb → List Slot
  | .parse | .check | .filter => [.query]
  | .configSet => [.key, .value]
  | .completions => [.shell]
  | _ => []

/-- The slots that must be filled. -/
def needs : Verb → List Slot
  | .filter => [.query, .data]
  | v => v.positions

end Verb

/-- The option of a name. -/
def Slot.ofName? (v : Verb) : String → Option Slot
  | "verbose" => some .verbose
  | "quiet" => some .quiet
  | "json" => some .json
  | "no-color" => some .noColour
  | "schema" => some .schema
  | "model" => some .model
  | "max-depth" => some .maxDepth
  | "help" => some .help
  | "version" => some .version
  | "data" => if v = .filter then some .data else none
  | _ => none

/-- The option of a letter. -/
def Slot.ofLetter? (v : Verb) : Char → Option Slot
  | 'v' => some .verbose
  | 'q' => some .quiet
  | 's' => some .schema
  | 'm' => some .model
  | 'h' => some .help
  | 'V' => some .version
  | 'd' => if v = .filter then some .data else none
  | _ => none

/-- Whether an option takes a value. -/
def Slot.takesValue : Slot → Bool
  | .verbose | .quiet | .json | .noColour | .help | .version => false
  | _ => true

/-- **A shell.** -/
inductive Shell where
  /-- The shell `bash`. -/
  | bash
  /-- The shell `zsh`. -/
  | zsh
  /-- The shell `fish`. -/
  | fish
  /-- The shell `powershell`. -/
  | powershell
  deriving DecidableEq

/-- The shell of a name. -/
def Shell.ofName? : String → Option Shell
  | "bash" => some .bash
  | "zsh" => some .zsh
  | "fish" => some .fish
  | "powershell" => some .powershell
  | _ => none

end RecordQuery
