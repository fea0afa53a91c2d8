import RecordQuery.Json.Value

/-!
# TOML documents

A TOML document is a table that its lines build up: a **header** opens a table, a header in double
brackets opens the next element of an array of tables, and an **assignment** gives a key of the open
table its value. Keys may be dotted, and every name on the way that does not exist yet becomes a
table.

Nothing is defined twice. A table remembers its `Origin`, because the ways to define a table do
not mix: a header may complete a table that only stood on the way to another header, but not one
that an assignment has made, and an assignment may add to tables that assignments have made, but
not to one that a header has.
-/

namespace RecordQuery.Toml

/-- **How a table came to be.** -/
inductive Origin where
  /-- A header of its own. -/
  | header
  /-- The header of a table inside it. -/
  | implied
  /-- A dotted key. -/
  | dotted
  deriving DecidableEq

/-- **What a key stands for** while the document is built. -/
inductive Item where
  /-- A value; it is complete. -/
  | value (v : Json)
  /-- A table that may still grow. -/
  | table (origin : Origin) (entries : List (String × Item))
  /-- An array of tables; the latest may still grow, and the earlier ones are listed backwards. -/
  | tables (earlier : List (List (String × Item))) (latest : List (String × Item))

/-- The entries of a table, in the order in which they were made. -/
abbrev Entries := List (String × Item)

namespace Entries

/-- Gives an existing key another item. -/
def replace (key : String) (item : Item) (es : Entries) : Entries :=
  es.map fun e => if e.1 = key then (key, item) else e

/-- **Changes the table at the end of a path of headers**, making the tables on the way. The latest
element stands for an array of tables. -/
def within? (change : Entries → Option Entries) : List String → Entries → Option Entries
  | [], es => change es
  | key :: keys, es =>
    match es.lookup key with
    | none => (within? change keys []).map fun inner => es ++ [(key, .table .implied inner)]
    | some (.value _) => none
    | some (.table origin inner) =>
      (within? change keys inner).map fun inner => es.replace key (.table origin inner)
    | some (.tables earlier latest) =>
      (within? change keys latest).map fun latest => es.replace key (.tables earlier latest)

/-- Opens the table of a key, if no header or assignment has made it. -/
def openTable? (key : String) (es : Entries) : Option Entries :=
  match es.lookup key with
  | none => some (es ++ [(key, .table .header [])])
  | some (.table .implied inner) => some (es.replace key (.table .header inner))
  | _ => none

/-- Opens the next element of an array of tables. -/
def openElement? (key : String) (es : Entries) : Option Entries :=
  match es.lookup key with
  | none => some (es ++ [(key, .tables [] [])])
  | some (.tables earlier latest) => some (es.replace key (.tables (latest :: earlier) []))
  | _ => none

/-- **Assigns a value to a dotted key** of a table. The table that holds the last name must have
been made by dotted keys too. -/
def assign? (v : Json) : List String → Entries → Option Entries
  | [], _ => none
  | [key], es =>
    match es.lookup key with
    | none => some (es ++ [(key, .value v)])
    | some _ => none
  | key :: keys, es =>
    match es.lookup key with
    | none => (assign? v keys []).map fun inner => es ++ [(key, .table .dotted inner)]
    | some (.value _) => none
    | some (.table .header _) => none
    | some (.table .implied inner) =>
      if keys.length = 1 then none
      else (assign? v keys inner).map fun inner => es.replace key (.table .implied inner)
    | some (.table .dotted inner) =>
      (assign? v keys inner).map fun inner => es.replace key (.table .dotted inner)
    | some (.tables earlier latest) =>
      if keys.length = 1 then none
      else (assign? v keys latest).map fun latest => es.replace key (.tables earlier latest)

end Entries

mutual
/-- **What a key stands for** once the document is complete. -/
def Item.toJson : Item → Json
  | .value v => v
  | .table _ entries => .object (entriesJson entries)
  | .tables earlier latest =>
    .array ((elementsJson earlier).reverse ++ [.object (entriesJson latest)])

/-- The members of a table. -/
def entriesJson : List (String × Item) → List (String × Json)
  | [] => []
  | (k, i) :: rest => (k, i.toJson) :: entriesJson rest

/-- The elements of an array of tables. -/
def elementsJson : List (List (String × Item)) → List Json
  | [] => []
  | es :: rest => .object (entriesJson es) :: elementsJson rest
end

/-- **A line that says something.** -/
inductive Line where
  /-- The header of a table. -/
  | table (path : List String)
  /-- The header of an element of an array of tables. -/
  | element (path : List String)
  /-- An assignment to a dotted key. -/
  | assignment (path : List String) (v : Json)

/-- A document that is being built. -/
structure Document where
  /-- The path of the open table. -/
  here : List String
  /-- The whole document. -/
  root : Entries

namespace Document

/-- The document without lines. -/
def empty : Document := ⟨[], []⟩

/-- Opens a table by the given way of opening its last name. -/
def opened? (d : Document) (change : String → Entries → Option Entries) (path : List String) :
    Option Document :=
  match path.getLast? with
  | none => none
  | some key => (Entries.within? (change key) path.dropLast d.root).map fun root => ⟨path, root⟩

/-- **Adds a line**; a line that defines something again has no place. -/
def add? (d : Document) : Line → Option Document
  | .table path => d.opened? Entries.openTable? path
  | .element path => d.opened? Entries.openElement? path
  | .assignment path v =>
    (Entries.within? (Entries.assign? v path) d.here d.root).map fun root => { d with root }

/-- The value of a document. -/
def toJson (d : Document) : Json := .object (entriesJson d.root)

end Document
end RecordQuery.Toml
