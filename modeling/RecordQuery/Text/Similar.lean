import RecordQuery.Text.Lowercase

/-!
# Similar names

A message about an unknown name offers the most similar known one. Similarity is the **edit
distance** of the lower-cased names: the least number of characters to insert, delete or replace.

The distance is computed row by row. The row of a prefix `a` of the first text lists the distances
from `a` to the prefixes of the second one, shortest prefix first; `nextRow` makes the row of
`a ++ [c]` out of it. `closest?` keeps the first of equally near names and refuses one that is
too far away or is the name that was asked for.
-/

namespace RecordQuery.Text

/-- The rest of a row: `left` is the entry just made, `diagonal` the old entry before it. -/
def extendRow (c : Char) (left diagonal : Nat) : List Char → List Nat → List Nat
  | b :: bs, above :: row =>
    let here := min (min (above + 1) (left + 1)) (diagonal + if b = c then 0 else 1)
    here :: extendRow c here above bs row
  | _, _ => []

/-- The row of distances after one more character `c` of the first text. -/
def nextRow (bs : List Char) (row : List Nat) (c : Char) : List Nat :=
  match row with
  | [] => []
  | first :: row => (first + 1) :: extendRow c (first + 1) first bs row

/-- **The edit distance of two texts.** -/
def editDistance (as bs : List Char) : Nat :=
  (as.foldl (nextRow bs) (List.range (bs.length + 1))).getLastD 0

/-- How far a name may be from the one it is offered for. -/
def similarityLimit : Nat := 3

/-- The nearer of two candidates, the first one when they are equally near. -/
def nearer (best : Option (String × Nat)) (next : String × Nat) : Option (String × Nat) :=
  match best with
  | none => some next
  | some b => if next.2 < b.2 then some next else some b

/-- **The known name to offer for an unknown one.** The first of the nearest names is
offered, unless it is farther away than `similarityLimit` or is the unknown name itself. The
empty name is never offered. -/
def closest? (name : String) (known : List String) : Option String :=
  let lowered := lowercase name.toList
  let scored := (known.filter (· ≠ "")).map fun k => (k, editDistance lowered (lowercase k.toList))
  match scored.foldl nearer none with
  | none => none
  | some (best, distance) => if best ≠ name ∧ distance ≤ similarityLimit then some best else none

end RecordQuery.Text
