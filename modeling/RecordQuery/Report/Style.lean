/-!
# Terminal styles

Headings, warnings and the caret are coloured on a terminal that shows colours. A colour is switched
on before a text and back to the default after it; bold stands outside the colour, and what it
switches on is switched off by a full reset.
-/

namespace RecordQuery

/-- **How a text is shown on a terminal.** -/
inductive Style where
  /-- Bold and red. -/
  | error
  /-- Bold and green. -/
  | heading
  /-- Bold and yellow. -/
  | warning
  /-- Cyan. -/
  | link
  /-- Dimmed. -/
  | faint
  deriving DecidableEq

/-- A control sequence of the terminal. -/
def controlSequence (code : String) : String := "\x1b[" ++ code ++ "m"

/-- A text in a colour. -/
def coloured (code : String) (text : String) : String :=
  controlSequence code ++ text ++ controlSequence "39"

/-- A bold text. -/
def bold (text : String) : String := controlSequence "1" ++ text ++ controlSequence "0"

/-- **A text in a style**, or the text alone on a terminal without colours. -/
def Style.apply (s : Style) (colours : Bool) (text : String) : String :=
  if !colours then text
  else
    match s with
    | .error => bold (coloured "31" text)
    | .heading => bold (coloured "32" text)
    | .warning => bold (coloured "33" text)
    | .link => coloured "36" text
    | .faint => controlSequence "2" ++ text ++ controlSequence "0"

end RecordQuery
