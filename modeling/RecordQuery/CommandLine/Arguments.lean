import RecordQuery.CommandLine.Verb
import RecordQuery.Number.Decimal

/-!
# Reading command lines

The arguments are read from left to right, one `Level` for every command on the line: the options in
front of a command's name belong to the level of the command around it. Each level is complete in
itself – an option may be given once on each, and what conflicts or is missing is decided on each –
and the innermost is decided first. Of an option given on several levels the innermost counts
(`chosen?`), and the environment counts only where the line says nothing.

An argument is put in its slot when the next one comes (`Level.pending`); so of two faults the later
one is reported if it shows in the name of an option, and the earlier one otherwise.
-/

namespace RecordQuery

/-- **Why a command line names no command to run.** -/
inductive Stop where
  /-- An option or an argument that has no slot. -/
  | unknownArgument
  /-- A command that there is not. -/
  | unknownCommand
  /-- A value that is missing, empty, or none of those that are possible. -/
  | invalidValue
  /-- A value that cannot be read. -/
  | malformedValue
  /-- A value for an option that takes none. -/
  | unneededValue
  /-- A slot that must be filled is not. -/
  | missingArgument
  /-- An option that is given twice, or two options that exclude each other. -/
  | conflict
  /-- Help is asked for. -/
  | help
  /-- The version is asked for. -/
  | version
  deriving DecidableEq

/-- **An argument in its slot.** -/
structure Given where
  /-- The slot. -/
  slot : Slot
  /-- The value; empty for an option that takes none. -/
  text : String
  /-- Whether the value comes from the environment. -/
  fromEnvironment : Bool
  deriving DecidableEq

/-- **What is known of one command on the line.** -/
structure Level where
  /-- The command. -/
  verb : Verb
  /-- The arguments in their slots. -/
  given : List Given
  /-- The slot that was opened last, and its value if there is one yet. -/
  pending : Option (Slot × Option String)
  /-- How many arguments were found by position. -/
  placed : Nat
  deriving DecidableEq

/-- How the next argument is read. -/
inductive Level.Mode where
  /-- It may be anything. -/
  | free
  /-- It may be the value of the option before it. -/
  | awaiting
  /-- It is not an option, nor is any after it. -/
  | verbatim
  deriving DecidableEq

/-- Whether a value is one of those that a slot admits. -/
def Slot.admit (s : Slot) (text : String) : Except Stop Unit :=
  match s with
  | .schema | .data => if text.isEmpty then .error .invalidValue else .ok ()
  | .maxDepth => if (readNat64? text.toList).isSome then .ok () else .error .malformedValue
  | .shell => if (Shell.ofName? text).isSome then .ok () else .error .invalidValue
  | _ => .ok ()

namespace Level

/-- A command of which nothing is known. -/
def start (v : Verb) : Level := ⟨v, [], none, 0⟩

/-- What was given for a slot. -/
def given? (l : Level) (s : Slot) : Option Given := l.given.find? (·.slot = s)

/-- **Fills a slot.** A slot is filled once, and only with a value that it admits. -/
def fill (l : Level) (s : Slot) (text : Option String) (fromEnvironment : Bool) :
    Except Stop Level :=
  match s with
  | .help => .error .help
  | .version => .error .version
  | s =>
    if s.takesValue && text.isNone then .error .invalidValue
    else if (l.given? s).isSome then .error .conflict
    else
      match s.admit (text.getD "") with
      | .error e => .error e
      | .ok () => .ok { l with given := l.given ++ [⟨s, text.getD "", fromEnvironment⟩] }

/-- Fills the slot that was opened last. -/
def settle (l : Level) : Except Stop Level :=
  match l.pending with
  | none => .ok l
  | some (s, text) => { l with pending := none }.fill s text false

/-- Fills a slot after the one that was opened last. -/
def accept (l : Level) (s : Slot) (text : Option String) : Except Stop Level := do
  (← l.settle).fill s text false

/-- Opens a slot after the one that was opened last is filled. -/
def hold (l : Level) (s : Slot) (text : Option String) : Except Stop Level := do
  return { (← l.settle) with pending := some (s, text) }

/-- Reads an option by its name, with the value behind the equals sign if there is one. -/
def takeNamed (l : Level) (name : String) (text : Option String) : Except Stop (Level × Mode) :=
  match Slot.ofName? l.verb name, text with
  | none, _ => .error .unknownArgument
  | some s, none =>
    if s.takesValue then (l.hold s none).map (·, .awaiting) else (l.accept s none).map (·, .free)
  | some s, some text =>
    if s.takesValue then (l.accept s (some text)).map (·, .free) else .error .unneededValue

/-- Reads options by their letters; what follows the letter of one that takes a value is its
value, behind an equals sign or not. -/
def takeLetters (l : Level) : List Char → Except Stop (Level × Mode)
  | [] => .ok (l, .free)
  | c :: rest =>
    match Slot.ofLetter? l.verb c with
    | none => .error .unknownArgument
    | some s =>
      if s.takesValue then
        match rest with
        | [] => (l.hold s none).map (·, .awaiting)
        | '=' :: text => (l.accept s (some (String.ofList text))).map (·, .free)
        | text => (l.accept s (some (String.ofList text))).map (·, .free)
      else
        match l.accept s none with
        | .error e => .error e
        | .ok l => l.takeLetters rest

/-- Reads an argument by its position. -/
def takePlaced (l : Level) (mode : Mode) (text : String) : Except Stop (Level × Mode) :=
  match l.verb.positions[l.placed]? with
  | some s => (l.hold s (some text)).map fun l => ({ l with placed := l.placed + 1 }, mode)
  | none =>
    if l.verb.commands.isEmpty then .error .unknownArgument
    else if mode = .verbatim && ((l.verb.command? text).isSome || text = "help") then
      .error .unknownArgument
    else .error .unknownCommand

/-- **Reads an argument that is not the name of a command.** -/
def take (l : Level) (mode : Mode) (text : String) : Except Stop (Level × Mode) :=
  match mode, text.toList with
  | .verbatim, _ => l.takePlaced .verbatim text
  | _, ['-', '-'] => .ok (l, .verbatim)
  | _, '-' :: '-' :: option =>
    let name := String.ofList (option.takeWhile (· ≠ '='))
    match option.dropWhile (· ≠ '=') with
    | [] => l.takeNamed name none
    | _ :: value => l.takeNamed name (some (String.ofList value))
  | .awaiting, cs =>
    match cs, l.pending with
    | '-' :: c :: letters, _ => l.takeLetters (c :: letters)
    | _, some (s, _) => .ok ({ l with pending := some (s, some text) }, .free)
    | _, none => .ok (l, .free)
  | .free, '-' :: c :: letters => l.takeLetters (c :: letters)
  | .free, _ => l.takePlaced .free text

/-- Takes the schema file from the environment if the line does not name it. -/
def consult (l : Level) (schema : Option String) : Except Stop Level :=
  match l.given? .schema, schema with
  | none, some text => l.fill .schema (some text) true
  | _, _ => .ok l

/-- **Completes a level**: nothing may exclude another thing, and nothing may be missing. -/
def complete (l : Level) (schema : Option String) : Except Stop Level := do
  let l ← (← l.settle).consult schema
  if (l.given? .verbose).isSome && (l.given? .quiet).isSome then throw .conflict
  else if l.verb.needs.any fun s => (l.given? s).isNone then throw .missingArgument
  else return l

end Level

/-- What a request for help leads to: each argument must name a command of the one before it. -/
def helpFor : Verb → List String → Stop
  | _, [] => .help
  | v, name :: names =>
    match v.command? name with
    | some inner => helpFor inner names
    | none => if name = "help" && !v.commands.isEmpty && names = [] then .help else .unknownCommand

/-- **Reads the arguments of a command**; the levels are listed from the outermost. -/
def readLevels (schema : Option String) :
    Level → Level.Mode → List String → Except Stop (List Level)
  | l, _, [] => (l.complete schema).map ([·])
  | l, mode, text :: rest =>
    match if mode = .free then l.verb.command? text else none with
    | some inner => do
      let inside ← readLevels schema (.start inner) .free rest
      return (← l.complete schema) :: inside
    | none =>
      if mode = .free && text = "help" && !l.verb.commands.isEmpty then .error (helpFor l.verb rest)
      else
        match l.take mode text with
        | .error e => .error e
        | .ok (l, mode) => readLevels schema l mode rest

/-- **What counts for a slot**: the innermost argument of the line, or else the environment's. -/
def chosen? (s : Slot) (levels : List Level) : Option String :=
  let given := levels.reverse.filterMap (·.given? s)
  ((given.find? (!·.fromEnvironment)).or given.head?).map (·.text)

/-- **A command with what it is about.** -/
inductive Command where
  /-- No command. -/
  | nothing
  /-- Show the tree of a query. -/
  | parse (query : String)
  /-- Show the predicate of a query. -/
  | check (query : String)
  /-- List the fields. -/
  | introspect
  /-- Show the records of a file that a query matches. -/
  | filter (query data : String)
  /-- Show the settings. -/
  | showSettings
  /-- Change a setting. -/
  | changeSetting (key value : String)
  /-- Show where settings are kept. -/
  | settingsPath
  /-- Write a script that completes command lines. -/
  | completions (shell : Shell)
  deriving DecidableEq

/-- **A command line that can be run.** -/
structure Invocation where
  /-- Say more. -/
  verbose : Bool
  /-- Say less. -/
  quiet : Bool
  /-- Answer in JSON. -/
  json : Bool
  /-- Answer without colours. -/
  noColour : Bool
  /-- The schema file. -/
  schema : Option String
  /-- The model that is searched. -/
  model : Option String
  /-- How many relations a path may take. -/
  maxDepth : Option Nat
  /-- The command. -/
  command : Command
  deriving DecidableEq

/-- The command of the innermost level. -/
def Level.command (l : Level) : Command :=
  let text (s : Slot) : String := ((l.given? s).map (·.text)).getD ""
  match l.verb with
  | .program => .nothing
  | .parse => .parse (text .query)
  | .check => .check (text .query)
  | .introspect => .introspect
  | .filter => .filter (text .query) (text .data)
  | .config | .configShow => .showSettings
  | .configSet => .changeSetting (text .key) (text .value)
  | .configPath => .settingsPath
  | .completions => .completions ((Shell.ofName? (text .shell)).getD .bash)

/-- **Reads a command line**; `schema` is the schema file that the environment names. -/
def Invocation.read (schema : Option String) (arguments : List String) :
    Except Stop Invocation := do
  let levels ← readLevels schema (.start .program) .free arguments
  let isGiven (s : Slot) : Bool := (chosen? s levels).isSome
  return {
    verbose := isGiven .verbose
    quiet := isGiven .quiet
    json := isGiven .json
    noColour := isGiven .noColour
    schema := chosen? .schema levels
    model := chosen? .model levels
    maxDepth := (chosen? .maxDepth levels).bind fun text => readNat64? text.toList
    command := ((levels.getLast?).map Level.command).getD .nothing }

end RecordQuery
