import RecordQuery.Report.Style

/-!
# The caret

An error in a query is shown by the line it lies in and a caret under its place. `Caret.locate`
finds the line and the column of an offset: a line break belongs to the end of its line, and an
offset beyond the query is taken as the query's end. The pad in front of the caret copies the tabs
of the line, so that the caret stands under its character whatever the width of a tab.
-/

namespace RecordQuery

/-- **A line of a query and a column in it.** -/
structure Caret where
  /-- The line, without its line break. -/
  line : List Char
  /-- How many characters of the line come before the caret. -/
  column : Nat
  deriving DecidableEq

namespace Caret

/-- The place of an offset in a text that is the rest of a query. -/
def locate (offset : Nat) (text : List Char) : Caret :=
  let line := text.takeWhile (· ≠ '\n')
  match _h : text.dropWhile (· ≠ '\n') with
  | [] => ⟨line, min offset line.length⟩
  | _ :: rest =>
    if offset ≤ line.length then ⟨line, offset⟩
    else locate (offset - (line.length + 1)) rest
termination_by text.length
decreasing_by
  have := (List.dropWhile_sublist (l := text) (· ≠ '\n')).length_le
  simp only [_h, List.length_cons] at this
  omega

/-- What stands under a character before the caret. -/
def padChar (c : Char) : Char := if c = '\t' then '\t' else ' '

/-- The pad in front of the caret. -/
def pad (c : Caret) : List Char := (c.line.take c.column).map padChar

/-- The line and the caret under it, each indented by two spaces. -/
def render (c : Caret) (colours : Bool) : String :=
  "  " ++ String.ofList c.line ++ "\n  " ++ String.ofList c.pad ++ Style.error.apply colours "^"

end Caret

/-- **The line of an offset with a caret under its place.** -/
def renderCaret (query : String) (offset : Nat) (colours : Bool) : String :=
  (Caret.locate offset query.toList).render colours

end RecordQuery
