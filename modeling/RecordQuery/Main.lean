import RecordQuery.CommandLine.Run

/-!
# The program

Reads the command line and the environment, runs the command on the machine's files, writes what
it says, and ends with its exit status.
-/

namespace RecordQuery.Program

/-- The reason behind a failed operation of the machine. -/
def fileError : IO.Error → FileError
  | .noFileOrDirectory _ _ _ => .notFound
  | .alreadyExists _ _ _ => .taken
  | .inappropriateType _ 21 _ => .isFolder
  | .inappropriateType _ 20 _ => .notFolder
  | .invalidArgument _ 36 _ => .nameTooLong
  | e => .other (toString e)

/-- An operation of the machine with its failure as a value. -/
def attempt {α : Type} (operation : IO α) : IO (Except FileError α) :=
  try return .ok (← operation)
  catch e => return .error (fileError e)

instance : Files IO where
  leads path := do
    match ← attempt (IO.FS.Handle.mk path .read) with
    | .ok _ => return true
    | .error _ => return false
  read path := attempt (IO.FS.readFile path)
  makeParents path := do
    match (Path.ofText path).parent? with
    | none => return .ok ()
    | some p =>
      if p.names.isEmpty then return .ok ()
      else
        let folder := (if p.absolute then "/" else "") ++ String.intercalate "/" p.names
        attempt (IO.FS.createDirAll folder)
  write path content := attempt (IO.FS.writeFile path content)

/-- What is said to a command line that cannot be run. -/
def stopText : Stop → String
  | .unknownArgument => "error: unexpected argument"
  | .unknownCommand => "error: unrecognized subcommand"
  | .invalidValue => "error: a value is missing or not possible"
  | .malformedValue => "error: a value cannot be read"
  | .unneededValue => "error: a value is given to an option that takes none"
  | .missingArgument => "error: a required argument is missing"
  | .conflict => "error: an argument is repeated or excluded by another one"
  | .help =>
    "Usage: fql [OPTIONS] [COMMAND]\n\nCommands: " ++ String.intercalate ", " commandNames
      ++ "\nOptions: -v, -q, --json, --no-color, -s <FILE>, -m <MODEL>, --max-depth <N>, -h, -V"
  | .version => "fql 0.1.0"

/-- Writes what a failure says. -/
def report (i : Invocation) (f : Failure) : IO Unit := do
  if i.json then
    IO.eprintln (Json.object [("error", f.toJson)]).canonical.pretty
  else
    IO.eprintln ("Error: " ++ f.message)
    match i.caret? f with
    | none => pure ()
    | some text => IO.eprintln text

/-- Runs a command line and gives its exit status. -/
def runArguments (arguments : List String) : IO UInt32 := do
  let env : Environment :=
    ⟨← IO.getEnv "FQL_CONFIG", ← IO.getEnv "XDG_CONFIG_HOME", ← IO.getEnv "HOME",
      ← IO.getEnv "FQL_SCHEMA"⟩
  match Invocation.read env.schema arguments with
  | .error stop =>
    if stop = .help ∨ stop = .version then
      IO.println (stopText stop)
      return 0
    else
      IO.eprintln (stopText stop)
      return 2
  | .ok i =>
    match ← i.run env with
    | .error f =>
      report i f
      return f.exitStatus.toUInt32
    | .ok output =>
      IO.eprint output.remarks
      IO.print output.answer
      return 0

end RecordQuery.Program

def main (arguments : List String) : IO UInt32 := RecordQuery.Program.runArguments arguments
