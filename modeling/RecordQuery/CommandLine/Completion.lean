import RecordQuery.CommandLine.Verb

/-!
# Completing command lines

A script for a shell that completes the names of the commands. The text of the scripts is this
library's own, in place of what a generator makes of the whole command line: they know the commands
of the first level, and neither their options nor the commands below them.
-/

namespace RecordQuery

/-- The names of the commands, without their short names. -/
def commandNames : List String :=
  (Verb.program.commands.map Prod.fst).filter fun name => name.length ≠ 1

/-- **The script that completes the first word of command lines in a shell.** There is one for every
shell; its text is chosen here and stands for that of a generated script. -/
def Shell.script (s : Shell) : String :=
  let names := String.intercalate " " commandNames
  match s with
  | .bash => "complete -W \"" ++ names ++ "\" fql\n"
  | .zsh => "#compdef fql\n_arguments \"1:command:(" ++ names ++ ")\" \"*:argument:_files\"\n"
  | .fish => "complete -c fql -n __fish_use_subcommand -f -a \"" ++ names ++ "\"\n"
  | .powershell =>
    "Register-ArgumentCompleter -Native -CommandName fql -ScriptBlock \x7b param($word) '"
      ++ names ++ "'.Split(' ') | Where-Object \x7b $_ -like \"$word*\" \x7d \x7d\n"

end RecordQuery
