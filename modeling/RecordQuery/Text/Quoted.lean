/-!
# Quoted text

A text value is shown between double quotes. The quote and the backslash are written after a
backslash, and so are the three control characters with a short name (line feed, tab, carriage
return); every other character stands for itself.
-/

namespace RecordQuery.Text

/-- How one character is written between the quotes. -/
def escapeChar : Char → List Char
  | '"' => ['\\', '"']
  | '\\' => ['\\', '\\']
  | '\n' => ['\\', 'n']
  | '\t' => ['\\', 't']
  | '\r' => ['\\', 'r']
  | c => [c]

/-- The characters between the quotes. -/
def escape (cs : List Char) : List Char := cs.flatMap escapeChar

@[simp] theorem escape_nil : escape [] = [] := rfl

@[simp] theorem escape_cons (c : Char) (cs : List Char) :
    escape (c :: cs) = escapeChar c ++ escape cs := rfl

/-- **A text between double quotes.** -/
def quote (s : String) : String := String.ofList ('"' :: (escape s.toList ++ ['"']))

end RecordQuery.Text
