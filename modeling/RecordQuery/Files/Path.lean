import RecordQuery.Query.Expr

/-!
# Paths

A path is a text with slashes. `Path` is what it says: whether it starts at the root, the names
that lead on from there, and how it ends. Repeated slashes say nothing, and a single point says
nothing but that the name before it is a folder's.
-/

namespace RecordQuery

/-- **How a path ends.** -/
inductive Path.Ending where
  /-- With a name. -/
  | name
  /-- With a name and a slash; it can only be that of a folder. -/
  | slash
  /-- With a single point, in the folder that the names lead to. -/
  | point
  deriving DecidableEq

/-- **The meaning of a path.** -/
structure Path where
  /-- Whether the path starts at the root and not at the working folder. -/
  absolute : Bool
  /-- The names; two points lead back. -/
  names : List String
  /-- How the path ends. -/
  ending : Path.Ending
  deriving DecidableEq

namespace Path

/-- The parts of a text between slashes. -/
def parts : List Char → List (List Char)
  | [] => [[]]
  | c :: cs =>
    if c = '/' then [] :: parts cs
    else
      match parts cs with
      | [] => [[c]]
      | p :: ps => (c :: p) :: ps

/-- How the parts between slashes end. -/
def endingOf (ps : List (List Char)) : Ending :=
  if (ps.filter (· ≠ [])).getLast? = some ['.'] then .point
  else if ps.getLast? = some [] then .slash
  else .name

/-- **Reads a path.** -/
def ofText (text : String) : Path :=
  let ps := parts text.toList
  { absolute := text.toList.head? = some '/'
    names := (ps.filter fun p => p ≠ [] && p ≠ ['.']).map String.ofList
    ending := endingOf ps }

/-- The path of the folder that holds the file; the root has none. -/
def parent? (p : Path) : Option Path :=
  if p.names = [] then none else some ⟨p.absolute, p.names.dropLast, .name⟩

/-- How many bytes the names take with the slashes before and between them. -/
def size (p : Path) : Nat :=
  (p.names.map String.utf8ByteSize).foldr (· + 1 + ·) 0 - (if p.absolute then 0 else 1)

/-- **What follows the last point of the file's name**, if anything but the point is before it. -/
def extension? (p : Path) : Option String :=
  match p.names.getLast? with
  | none => none
  | some name =>
    let backwards := name.toList.reverse
    let ending := (backwards.takeWhile (· ≠ '.')).reverse
    match backwards.dropWhile (· ≠ '.') with
    | _ :: _ :: _ => if name = ".." then none else some (String.ofList ending)
    | _ => none

/-- The text of a path that goes on from a folder. -/
def join (folder name : String) : String :=
  if folder.isEmpty || folder.toList.getLast? = some '/' then folder ++ name
  else folder ++ "/" ++ name

end Path
end RecordQuery
