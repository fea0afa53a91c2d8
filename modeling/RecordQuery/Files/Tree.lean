import RecordQuery.Files.Basic
import RecordQuery.Files.Path

/-!
# File trees

Files and folders in memory. A `FileTree` lists its entries by their places, a place being the
names from the root; the root itself is a folder, and so is the working folder, where relative
paths start. No place occurs twice, and whatever is in a tree is in a folder. So an entry is put
into a folder of the tree and not in the place of another one; that changes one place and
nothing else (`entryAt_put`).

A path is followed name by name, and every name on the way must be that of a folder.
-/

namespace RecordQuery

/-- The names that lead from the root to a file or folder. -/
abbrev Place := List String

/-- **A file or a folder.** -/
inductive FileTree.Entry where
  /-- A file and its content. -/
  | file (content : String)
  /-- A folder. -/
  | folder
  deriving DecidableEq

namespace FileTree

/-! ## Entries by their places -/

/-- What a list of entries has at a place; the root is a folder. -/
def entryIn (entries : List (Place × Entry)) (place : Place) : Option Entry :=
  if place = [] then some .folder else entries.lookup place

/-- **Entries are closed** if whatever is among them is in a folder. -/
def Closed (entries : List (Place × Entry)) : Prop :=
  ∀ (place : Place) (name : String) (e : Entry),
    entryIn entries (place ++ [name]) = some e → entryIn entries place = some .folder

/-- The entries with one more, or with another one at its place. -/
def putEntry (place : Place) (e : Entry) (entries : List (Place × Entry)) :
    List (Place × Entry) :=
  (place, e) :: entries.filter (·.1 ≠ place)

section

variable {place here : Place} {name : String} {e : Entry} {entries : List (Place × Entry)}

theorem lookup_filter_ne {other : Place} (h : other ≠ place) (entries : List (Place × Entry)) :
    (entries.filter (·.1 ≠ place)).lookup other = entries.lookup other := by
  induction entries with
  | nil => rfl
  | cons head rest ih =>
    obtain ⟨p, v⟩ := head
    by_cases hp : p = place
    · have hop : (other == p) = false := by simpa [hp] using h
      rw [List.filter_cons_of_neg (by simpa using hp), ih, List.lookup_cons, hop]
    · rw [List.filter_cons_of_pos (by simpa using hp), List.lookup_cons, List.lookup_cons, ih]

/-- An entry that is put at a place is found there, and elsewhere nothing changes. -/
theorem entryIn_putEntry (h : place ≠ []) (other : Place) :
    entryIn (putEntry place e entries) other
      = if other = place then some e else entryIn entries other := by
  by_cases ho : other = []
  · subst ho
    simp [entryIn, Ne.symm h]
  · by_cases hp : other = place
    · subst hp
      simp [entryIn, putEntry, ho]
    · have hne : (other == place) = false := by simpa using hp
      simp only [entryIn, putEntry, ho, hp, if_false, List.lookup_cons, hne]
      exact lookup_filter_ne hp entries

theorem nodup_putEntry (h : (entries.map Prod.fst).Nodup) :
    ((putEntry place e entries).map Prod.fst).Nodup := by
  have hkept : ((entries.filter (·.1 ≠ place)).map Prod.fst).Nodup :=
    h.sublist (List.filter_sublist.map _)
  refine List.nodup_cons.mpr ⟨fun hmem => ?_, hkept⟩
  obtain ⟨other, hother, heq⟩ := List.mem_map.mp hmem
  exact absurd heq (by simpa using (List.mem_filter.mp hother).2)

/-- **Entries stay closed** if one is put into a folder, and not in the place of another folder. -/
theorem Closed.putEntry (h : Closed entries) (hhere : entryIn entries here = some .folder)
    (hfree : entryIn entries (here ++ [name]) ≠ some .folder) :
    Closed (putEntry (here ++ [name]) e entries) := by
  intro place inner e' he'
  rw [entryIn_putEntry (by simp)] at he' ⊢
  have hne : here ≠ here ++ [name] := by simp
  split at he'
  · rename_i hsame
    obtain ⟨rfl, -⟩ := List.append_inj' hsame rfl
    rw [if_neg hne]
    exact hhere
  · have hfolder := h place inner e' he'
    have hplace : place ≠ here ++ [name] := by
      rintro rfl
      exact hfree hfolder
    rw [if_neg hplace]
    exact hfolder

end

end FileTree

/-- **Files and folders by their places.** -/
structure FileTree where
  /-- The entries. -/
  entries : List (Place × FileTree.Entry)
  /-- No place occurs twice. -/
  nodup : (entries.map Prod.fst).Nodup
  /-- Whatever is in the tree is in a folder. -/
  closed : FileTree.Closed entries

namespace FileTree

/-- Where relative paths start. -/
def workingFolder : Place := ["work"]

theorem closed_workingFolder : Closed [(workingFolder, .folder)] := by
  intro place name e h
  have hlookup : List.lookup (place ++ [name]) [(workingFolder, Entry.folder)] = some e := by
    rw [entryIn, if_neg (by simp)] at h
    exact h
  rw [List.lookup_cons] at hlookup
  split at hlookup
  · rename_i hplace
    have happend : place ++ [name] = [] ++ ["work"] := beq_iff_eq.mp hplace
    obtain ⟨rfl, -⟩ := List.append_inj' happend rfl
    rfl
  · cases hlookup

/-- The tree with an empty working folder. -/
def empty : FileTree := ⟨[(workingFolder, .folder)], by simp, closed_workingFolder⟩

/-- What is at a place. -/
def entryAt (t : FileTree) (place : Place) : Option Entry := entryIn t.entries place

/-- What holds an entry is a folder. -/
theorem folder_of_entryAt {t : FileTree} {place : Place} {name : String} {e : Entry}
    (h : t.entryAt (place ++ [name]) = some e) : t.entryAt place = some .folder :=
  t.closed place name e h

/-- **A folder of a tree.** -/
abbrev Folder (t : FileTree) := { here : Place // t.entryAt here = some .folder }

/-- The tree with an entry in a folder, where there is no other folder of that name. -/
def put (t : FileTree) (here : t.Folder) (name : String) (e : Entry)
    (hfree : t.entryAt (here.1 ++ [name]) ≠ some .folder) : FileTree where
  entries := putEntry (here.1 ++ [name]) e t.entries
  nodup := nodup_putEntry t.nodup
  closed := t.closed.putEntry here.2 hfree

/-- **Putting an entry changes one place.** -/
theorem entryAt_put {t : FileTree} {here : t.Folder} {name : String} {e : Entry}
    {hfree : t.entryAt (here.1 ++ [name]) ≠ some .folder} (other : Place) :
    (t.put here name e hfree).entryAt other
      = if other = here.1 ++ [name] then some e else t.entryAt other :=
  entryIn_putEntry (by simp) other

/-- How many bytes a name may take. -/
def longestName : Nat := 255

/-- How many bytes a path may take. -/
def longestPath : Nat := 4095

/-- **Follows names from a folder**; every name that is left behind must be that of a folder. -/
def follow (t : FileTree) : Place → List String → Except FileError Place
  | here, [] => .ok here
  | here, name :: names =>
    match t.entryAt here with
    | none => .error .notFound
    | some (.file _) => .error .notFolder
    | some .folder =>
      if longestName < name.utf8ByteSize then .error .nameTooLong
      else t.follow (if name = ".." then here.dropLast else here ++ [name]) names

/-- Where a path starts. -/
def start (p : Path) : Place := if p.absolute then [] else workingFolder

/-- What a path leads to. -/
def find (t : FileTree) (p : Path) : Except FileError (Place × Entry) :=
  match t.follow (start p) p.names with
  | .error e => .error e
  | .ok place =>
    match t.entryAt place with
    | none => .error .notFound
    | some (.file content) =>
      if p.ending = .name then .ok (place, .file content) else .error .notFolder
    | some .folder => .ok (place, .folder)

/-- The meaning of a path that may be followed: it is not empty, has no null character and is not
too long. -/
def checked (path : String) : Except FileError Path :=
  if path.toList.contains '\x00' then .error .nullInName
  else if path.isEmpty then .error .notFound
  else if longestPath < path.utf8ByteSize then .error .nameTooLong
  else .ok (.ofText path)

/-- Whether a path leads anywhere. -/
def leads (t : FileTree) (path : String) : Bool :=
  match checked path with
  | .error _ => false
  | .ok p =>
    match t.find p with
    | .ok _ => true
    | .error _ => false

/-- **The content of a file.** -/
def read (t : FileTree) (path : String) : Except FileError String :=
  match checked path with
  | .error e => .error e
  | .ok p =>
    match t.find p with
    | .error e => .error e
    | .ok (_, .folder) => .error .isFolder
    | .ok (_, .file content) => .ok content

/-- The folder at a place. -/
def folderAt (t : FileTree) (place : Place) : Except FileError t.Folder :=
  match h : t.entryAt place with
  | none => .error .notFound
  | some (.file _) => .error .notFolder
  | some .folder => .ok ⟨place, h⟩

/-- The folder in which the names of a path lead to their last one; it must exist. -/
def holder (t : FileTree) (p : Path) : Except FileError t.Folder :=
  match t.follow (start p) p.names.dropLast with
  | .error e => .error e
  | .ok here => t.folderAt here

/-- The folder and the name of a file that may be written. The folder must exist, and the path must
end with the name. -/
def filePlace (t : FileTree) (p : Path) : Except FileError (t.Folder × String) :=
  match p.ending, p.names.getLast? with
  | .point, _ | _, none =>
    match t.find p with
    | .error e => .error e
    | .ok _ => .error .isFolder
  | ending, some name =>
    match t.holder p with
    | .error e => .error e
    | .ok here =>
      if ending = .slash ∨ name = ".." then .error .isFolder
      else if longestName < name.utf8ByteSize then .error .nameTooLong
      else .ok (here, name)

/-- **Gives a file its content.** -/
def write (t : FileTree) (path content : String) : Except FileError FileTree :=
  match checked path with
  | .error e => .error e
  | .ok p =>
    match t.filePlace p with
    | .error e => .error e
    | .ok (here, name) =>
      if h : t.entryAt (here.1 ++ [name]) = some .folder then .error .isFolder
      else .ok (t.put here name (.file content) h)

/-- Makes the folder that names lead to; a folder that is there is left as it is. -/
def makeFolder (t : FileTree) (p : Path) : Except FileError FileTree :=
  if p.names.any fun name => name.toList.contains '\x00' then .error .nullInName
  else if longestPath < p.size then .error .nameTooLong
  else
    match p.names.getLast?, t.holder p with
    | none, _ => .ok t
    | some _, .error e => .error e
    | some name, .ok here =>
      if name = ".." then .ok t
      else if longestName < name.utf8ByteSize then .error .nameTooLong
      else
        match h : t.entryAt (here.1 ++ [name]) with
        | none => .ok (t.put here name .folder (by simp [h]))
        | some .folder => .ok t
        | some (.file _) => .error .taken

/-- **Makes a folder and the folders on the way**, which are given by their names, the last one
first. The folders on the way are only made if the last one cannot be made without them; the tree
is what has been made when a step fails. -/
def makeFolders (t : FileTree) (absolute : Bool) : List String → Except FileError Unit × FileTree
  | [] => (.ok (), t)
  | name :: outer =>
    let here : Path := ⟨absolute, (name :: outer).reverse, .name⟩
    match t.makeFolder here with
    | .ok t => (.ok (), t)
    | .error .notFound =>
      match t.makeFolders absolute outer with
      | (.error e, t) => (.error e, t)
      | (.ok (), t) =>
        match t.makeFolder here with
        | .ok t => (.ok (), t)
        | .error e => (.error e, t)
    | .error e => (.error e, t)

/-- Makes the folder that holds a file. -/
def makeParents (t : FileTree) (path : String) : Except FileError Unit × FileTree :=
  match (Path.ofText path).parent? with
  | none => (.ok (), t)
  | some p => t.makeFolders p.absolute p.names.reverse

instance : Files (StateM FileTree) where
  leads path := fun t => (t.leads path, t)
  read path := fun t => (t.read path, t)
  makeParents path := fun t => t.makeParents path
  write path content := fun t =>
    match t.write path content with
    | .error e => (.error e, t)
    | .ok t => (.ok (), t)

/-- The tree with a file at a relative path, and the folders on the way. -/
def withFile (t : FileTree) (path content : String) : FileTree :=
  let t := (t.makeParents path).2
  match t.write path content with
  | .error _ => t
  | .ok t => t

/-- The files in the working folder with their paths and contents. -/
def workingFiles (t : FileTree) : List (String × String) :=
  t.entries.filterMap fun e =>
    match e.2 with
    | .folder => none
    | .file content =>
      if workingFolder.isPrefixOf e.1 then
        some (String.intercalate "/" (e.1.drop workingFolder.length), content)
      else none

end FileTree
end RecordQuery
