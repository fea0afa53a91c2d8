import RecordQuery.Files.Tree
import RecordQuery.Proofs.Files.Path

/-!
# What changes in a tree

Making folders adds folders to a tree and does nothing else (`gains_makeParents`), also when it
fails half way. Writing a file changes the place of that file alone, and the path leads to the new
content (`find_of_write`). Whatever a path led to before folders were added, it leads to
afterwards (`Gains.find`).

The converse does not hold. A path that steps back with two points over a folder that does not
exist leads nowhere, and may lead to a file once that folder is made. It holds for paths that step
back over nothing but folders that exist (`StepsBackInside`): making the folders on the way of a
file does not make the path lead anywhere (`sameFiles_makeParents`).
-/

namespace RecordQuery.FileTree

/-! ## Trees -/

/-- **A tree gains folders**, and everything else stays as it is. -/
def Gains (t t' : FileTree) : Prop :=
  ∀ place,
    t'.entryAt place = t.entryAt place ∨ t.entryAt place = none ∧ t'.entryAt place = some .folder

/-- A tree keeps its folders. -/
def KeepsFolders (t t' : FileTree) : Prop :=
  ∀ place, t.entryAt place = some .folder → t'.entryAt place = some .folder

/-- Where a name leads from a folder. -/
def onward (here : Place) (name : String) : Place :=
  if name = ".." then here.dropLast else here ++ [name]

/-- **Names step back over nothing but folders that exist**: behind the first one that is not in a
folder, there are no two points. -/
def backsInside (t : FileTree) : Place → List String → Bool
  | _, [] => true
  | here, name :: names =>
    match t.entryAt here with
    | some .folder => t.backsInside (onward here name) names
    | _ => !(name :: names).contains ".."

/-- **A path steps back over nothing but folders that exist.** -/
def StepsBackInside (t : FileTree) (path : String) : Prop :=
  t.backsInside (start (.ofText path)) (Path.ofText path).names = true

instance (t : FileTree) (path : String) : Decidable (StepsBackInside t path) :=
  inferInstanceAs (Decidable (_ = true))

/-- **No file has changed**, and a path leads to a file or folder if it did before,
and to the same text. -/
def SameFiles (path : String) (t t' : FileTree) : Prop :=
  (∀ place content, t'.entryAt place = some (.file content)
    ↔ t.entryAt place = some (.file content))
    ∧ t'.leads path = t.leads path ∧ (t'.read path).toOption = (t.read path).toOption

section

variable {t t' t'' : FileTree} {place here : Place} {names more : List String} {name : String}
    {e : Entry}

theorem Gains.refl (t : FileTree) : Gains t t := fun _ => Or.inl rfl

theorem Gains.trans (h : Gains t t') (h' : Gains t' t'') : Gains t t'' := by
  intro place
  rcases h' place with h' | ⟨hnone, hfolder⟩
  · rw [h']
    exact h place
  · rcases h place with h | ⟨hnone', -⟩
    · exact Or.inr ⟨h ▸ hnone, hfolder⟩
    · exact Or.inr ⟨hnone', hfolder⟩

/-- What is in the tree stays in it. -/
theorem Gains.entryAt (h : Gains t t') (he : t.entryAt place = some e) :
    t'.entryAt place = some e := by
  rcases h place with h | ⟨hnone, -⟩
  · exact h.trans he
  · rw [hnone] at he
    cases he

theorem Gains.keepsFolders (h : Gains t t') : KeepsFolders t t' := fun _ => h.entryAt

/-- **The files stay as they are.** -/
theorem Gains.file_iff (h : Gains t t') {content : String} :
    t'.entryAt place = some (.file content) ↔ t.entryAt place = some (.file content) := by
  refine ⟨fun hfile => ?_, h.entryAt⟩
  rcases h place with h | ⟨-, hfolder⟩
  · exact h ▸ hfile
  · rw [hfolder] at hfile
    cases hfile

/-! ## Following names -/

@[simp] theorem follow_nil : t.follow here [] = .ok here := rfl

/-- **A name is followed** from a folder, if it is not too long. -/
theorem follow_cons_eq_ok_iff :
    t.follow here (name :: names) = .ok place
      ↔ t.entryAt here = some .folder ∧ name.utf8ByteSize ≤ longestName
        ∧ t.follow (onward here name) names = .ok place := by
  rw [follow]
  split
  · simp [*]
  · simp [*]
  · rename_i hfolder
    by_cases hlong : longestName < name.utf8ByteSize
    · rw [if_pos hlong]
      simp [Nat.not_le.mpr hlong]
    · rw [if_neg hlong]
      simp [hfolder, Nat.not_lt.mp hlong, onward]

/-- Names are followed one part after the other. -/
theorem follow_append_eq_ok_iff :
    t.follow here (names ++ more) = .ok place
      ↔ ∃ between, t.follow here names = .ok between ∧ t.follow between more = .ok place := by
  induction names generalizing here with
  | nil => simp
  | cons name names ih =>
    rw [List.cons_append, follow_cons_eq_ok_iff, ih]
    simp only [follow_cons_eq_ok_iff]
    constructor
    · rintro ⟨hhere, hsize, between, hbetween, hplace⟩
      exact ⟨between, ⟨hhere, hsize, hbetween⟩, hplace⟩
    · rintro ⟨between, ⟨hhere, hsize, hbetween⟩, hplace⟩
      exact ⟨hhere, hsize, between, hbetween, hplace⟩

/-- **Names lead on to the same place**, as long as the folders on the way stay. -/
theorem KeepsFolders.follow (h : KeepsFolders t t') (hplace : t.follow here names = .ok place) :
    t'.follow here names = .ok place := by
  induction names generalizing here with
  | nil => exact hplace
  | cons name names ih =>
    obtain ⟨hhere, hsize, hnext⟩ := follow_cons_eq_ok_iff.mp hplace
    exact follow_cons_eq_ok_iff.mpr ⟨h here hhere, hsize, ih hnext⟩

/-! ## Stepping back -/

/-- Names without two points step back over nothing. -/
theorem backsInside_of_not_mem (h : ".." ∉ names) : t.backsInside here names = true := by
  induction names generalizing here with
  | nil => rfl
  | cons name names ih =>
    rw [backsInside]
    split
    · exact ih fun hmem => h (List.mem_cons_of_mem _ hmem)
    · simpa using h

/-- **Where names step back over existing folders, they do so as long as these stay.** -/
theorem KeepsFolders.backsInside (h : KeepsFolders t t') (hback : t.backsInside here names = true) :
    t'.backsInside here names = true := by
  induction names generalizing here with
  | nil => rfl
  | cons name names ih =>
    rw [FileTree.backsInside] at hback
    split at hback
    · rename_i hfolder
      rw [FileTree.backsInside, h here hfolder]
      exact ih hback
    · exact backsInside_of_not_mem (by simpa using hback)

/-- Behind names that can be followed, the rest counts. -/
theorem backsInside_append (h : t.follow here names = .ok place) :
    t.backsInside here (names ++ more) = t.backsInside place more := by
  induction names generalizing here with
  | nil =>
    obtain rfl := Except.ok.inj h
    rfl
  | cons name names ih =>
    obtain ⟨hhere, -, hnext⟩ := follow_cons_eq_ok_iff.mp h
    rw [List.cons_append, backsInside, hhere]
    exact ih hnext

/-! ## What a path leads to -/

variable {p : Path}

/-- **A path leads to an entry** if its names lead to the place of the entry; a file's path
must end with its name. -/
theorem find_eq_ok_iff :
    t.find p = .ok (place, e)
      ↔ t.follow (start p) p.names = .ok place ∧ t.entryAt place = some e
        ∧ (e = .folder ∨ p.ending = .name) := by
  unfold find
  split
  · simp [*]
  · rename_i place' hfollow
    split
    · rename_i hnone
      simp only [reduceCtorEq, false_iff, hfollow, Except.ok.injEq, not_and]
      rintro rfl he
      rw [hnone] at he
      cases he
    · rename_i content hfile
      split
      · rename_i hending
        simp only [Except.ok.injEq, Prod.mk.injEq, hfollow, hending, or_true, and_true]
        constructor
        · rintro ⟨rfl, rfl⟩
          exact ⟨rfl, hfile⟩
        · rintro ⟨rfl, he⟩
          exact ⟨rfl, Option.some.inj (hfile.symm.trans he)⟩
      · rename_i hending
        simp only [reduceCtorEq, false_iff, hfollow, Except.ok.injEq, not_and]
        rintro rfl he
        obtain rfl := Option.some.inj (hfile.symm.trans he)
        simp [hending]
    · rename_i hfolder
      simp only [Except.ok.injEq, Prod.mk.injEq, hfollow]
      constructor
      · rintro ⟨rfl, rfl⟩
        exact ⟨rfl, hfolder, Or.inl rfl⟩
      · rintro ⟨rfl, he, -⟩
        exact ⟨rfl, Option.some.inj (hfolder.symm.trans he)⟩

/-- **What a path leads to stays what it leads to** when folders are added. -/
theorem Gains.find (h : Gains t t') (hfind : t.find p = .ok (place, e)) :
    t'.find p = .ok (place, e) := by
  obtain ⟨hfollow, he, hending⟩ := find_eq_ok_iff.mp hfind
  exact find_eq_ok_iff.mpr ⟨h.keepsFolders.follow hfollow, h.entryAt he, hending⟩

/-- A path may be followed if it has no null character, is not empty and is not too long. -/
theorem checked_eq_ok_iff {path : String} :
    checked path = .ok p
      ↔ '\x00' ∉ path.toList ∧ (path ≠ "" ∧ path.utf8ByteSize ≤ longestPath)
        ∧ p = .ofText path := by
  unfold checked
  split
  · rename_i hnull
    simp only [reduceCtorEq, false_iff, not_and]
    intro h
    exact absurd (by simpa using hnull) h
  · rename_i hnull
    split
    · rename_i hempty
      simp only [reduceCtorEq, false_iff, not_and]
      rintro - ⟨hne, -⟩
      exact absurd (by simpa using hempty) hne
    · rename_i hempty
      split
      · rename_i hlong
        simp only [reduceCtorEq, false_iff, not_and]
        rintro - ⟨-, hshort⟩
        exact absurd hshort (Nat.not_le.mpr hlong)
      · rename_i hshort
        have hpath : '\x00' ∉ path.toList ∧ path ≠ "" ∧ path.utf8ByteSize ≤ longestPath :=
          ⟨by simpa using hnull, by simpa using hempty, Nat.le_of_not_lt hshort⟩
        exact ⟨fun h => ⟨hpath.1, hpath.2, (Except.ok.inj h).symm⟩, fun h => h.2.2 ▸ rfl⟩

theorem leads_eq_true_iff {path : String} :
    t.leads path = true
      ↔ checked path = .ok (.ofText path) ∧ ∃ x, t.find (.ofText path) = .ok x := by
  unfold leads
  split
  · simp [*]
  · rename_i p hchecked
    obtain rfl := (checked_eq_ok_iff.mp hchecked).2.2
    split <;> simp [*]

/-- **A text is read** where the path leads to a file that holds it. -/
theorem read_eq_ok_iff {path content : String} :
    t.read path = .ok content
      ↔ checked path = .ok (.ofText path)
        ∧ ∃ place, t.find (.ofText path) = .ok (place, .file content) := by
  unfold read
  split
  · simp [*]
  · rename_i p hchecked
    obtain rfl := (checked_eq_ok_iff.mp hchecked).2.2
    split <;> simp [*, eq_comm]

/-! ## Making folders -/

/-- A folder is found at its place. -/
theorem folderAt_eq_ok_iff {folder : t.Folder} :
    t.folderAt place = .ok folder ↔ folder.1 = place := by
  have hfolder := folder.2
  unfold folderAt
  split
  · rename_i hnone
    simp only [reduceCtorEq, false_iff]
    rintro rfl
    simp [hnone] at hfolder
  · rename_i hfile
    simp only [reduceCtorEq, false_iff]
    rintro rfl
    simp [hfile] at hfolder
  · rw [Except.ok.injEq, Subtype.ext_iff, eq_comm]

/-- The folder of the last name is the one that the others lead to. -/
theorem holder_eq_ok_iff {folder : t.Folder} :
    t.holder p = .ok folder ↔ t.follow (start p) p.names.dropLast = .ok folder.1 := by
  unfold holder
  split
  · simp [*]
  · rename_i place hfollow
    rw [folderAt_eq_ok_iff, hfollow, Except.ok.injEq, eq_comm]

/-- **The last name of a path stands for a place in a folder that exists**, whether or
not anything is there. -/
structure Ends (t : FileTree) (p : Path) (here : t.Folder) (name : String) : Prop where
  /-- It is the last name. -/
  last : p.names.getLast? = some name
  /-- It does not lead back. -/
  ne_back : name ≠ ".."
  /-- It is not too long. -/
  short : name.utf8ByteSize ≤ longestName
  /-- The other names lead to the folder. -/
  follow : t.follow (start p) p.names.dropLast = .ok here.1

/-- The names lead to the place in any tree that keeps the folders. -/
theorem Ends.follow_names {here : t.Folder} (h : Ends t p here name) (hkeeps : KeepsFolders t t') :
    t'.follow (start p) p.names = .ok (here.1 ++ [name]) := by
  have hnames : p.names = p.names.dropLast ++ [name] := by
    obtain ⟨first, hfirst⟩ := List.getLast?_eq_some_iff.mp h.last
    rw [hfirst, List.dropLast_concat]
  have hlast : t'.follow here.1 [name] = .ok (here.1 ++ [name]) := by
    rw [follow_cons_eq_ok_iff, onward, if_neg h.ne_back]
    exact ⟨hkeeps here.1 here.2, h.short, rfl⟩
  rw [hnames]
  exact follow_append_eq_ok_iff.mpr ⟨here.1, hkeeps.follow h.follow, hlast⟩

/-- **Making a folder makes a new one or changes nothing.** -/
theorem makeFolder_eq_ok (h : t.makeFolder p = .ok t') :
    t' = t ∨ ∃ here name, Ends t p here name ∧ t.entryAt (here.1 ++ [name]) = none
      ∧ ∃ hfree, t' = t.put here name .folder hfree := by
  unfold makeFolder at h
  split at h
  · cases h
  split at h
  · cases h
  split at h
  · exact Or.inl (Except.ok.inj h).symm
  · cases h
  rename_i name here hlast hholder
  split at h
  · exact Or.inl (Except.ok.inj h).symm
  rename_i hback
  split at h
  · cases h
  rename_i hshort
  split at h
  · rename_i hfree
    exact Or.inr ⟨here, name,
      ⟨hlast, hback, Nat.le_of_not_lt hshort, holder_eq_ok_iff.mp hholder⟩, hfree, _,
      (Except.ok.inj h).symm⟩
  · exact Or.inl (Except.ok.inj h).symm
  · cases h

/-- A folder stays if an entry is put in the place of something else. -/
theorem keepsFolders_put {here : t.Folder} (hfree : t.entryAt (here.1 ++ [name]) ≠ some .folder) :
    KeepsFolders t (t.put here name e hfree) := by
  intro place hplace
  have hne : place ≠ here.1 ++ [name] := by
    rintro rfl
    exact hfree hplace
  rw [entryAt_put, if_neg hne]
  exact hplace

theorem gains_makeFolder (h : t.makeFolder p = .ok t') : Gains t t' := by
  rcases makeFolder_eq_ok h with rfl | ⟨here, name, -, hnone, hfree, rfl⟩
  · exact .refl _
  · intro place
    rw [entryAt_put]
    split
    · rename_i hplace
      exact Or.inr ⟨hplace ▸ hnone, rfl⟩
    · exact Or.inl rfl

/-- **What every new folder on the way preserves** is preserved when folders are made,
whether or not a step fails. -/
theorem makeFolders_induction {P : FileTree → Prop} (absolute : Bool) (outer : List String)
    (hstep : ∀ {t t' front}, front <+: outer.reverse → P t →
      t.makeFolder ⟨absolute, front, .name⟩ = .ok t' → P t')
    (h : P t) : P (t.makeFolders absolute outer).2 := by
  induction outer generalizing t with
  | nil => exact h
  | cons name outer ih =>
    have hmade : ∀ {t t'},
        P t → t.makeFolder ⟨absolute, (name :: outer).reverse, .name⟩ = .ok t' → P t' :=
      hstep (List.prefix_refl _)
    have houter : P (t.makeFolders absolute outer).2 := by
      refine ih (fun hfront => hstep (hfront.trans ?_)) h
      rw [List.reverse_cons]
      exact List.prefix_append _ _
    rw [makeFolders]
    split
    · exact hmade h ‹_›
    · split
      · rename_i heq
        rwa [heq] at houter
      · rename_i heq
        rw [heq] at houter
        split
        · exact hmade houter ‹_›
        · exact houter
    · exact h

/-- The same for the folders on the way of a file. -/
theorem makeParents_induction {P : FileTree → Prop} {path : String}
    (hstep : ∀ {t t' front}, front <+: (Path.ofText path).names.dropLast → P t →
      t.makeFolder ⟨(Path.ofText path).absolute, front, .name⟩ = .ok t' → P t')
    (h : P t) : P (t.makeParents path).2 := by
  unfold makeParents
  split
  · exact h
  · rename_i p hparent
    unfold Path.parent? at hparent
    split at hparent
    · cases hparent
    · obtain rfl := Option.some.inj hparent
      refine makeFolders_induction _ _ (fun hfront => hstep ?_) h
      rwa [List.reverse_reverse] at hfront

/-- **Making the folders of a file adds folders and does nothing else.** -/
theorem gains_makeParents (t : FileTree) (path : String) : Gains t (t.makeParents path).2 :=
  makeParents_induction (fun _ h hmake => h.trans (gains_makeFolder hmake)) (.refl t)

/-- **A new folder on the way does not make a path lead anywhere**, if the path steps back over
nothing but folders that exist: behind the new folder there is nothing yet. -/
theorem find_ne_ok_of_makeFolder {front : List String}
    (hback : t.backsInside (start p) p.names = true) (hfront : front <+: p.names.dropLast)
    (hmake : t.makeFolder ⟨p.absolute, front, .name⟩ = .ok t') (h : ∀ x, t.find p ≠ .ok x)
    (x : Place × Entry) : t'.find p ≠ .ok x := by
  rcases makeFolder_eq_ok hmake with
    rfl | ⟨⟨here, hfolder⟩, name, ⟨hlast, hname, -, hhere⟩, hnone, hfree, rfl⟩
  · exact h x
  obtain ⟨first, rfl⟩ := List.getLast?_eq_some_iff.mp hlast
  replace hhere : t.follow (start p) first = .ok here := by rwa [List.dropLast_concat] at hhere
  obtain ⟨next, rest, hnames⟩ : ∃ next rest, p.names = first ++ name :: next :: rest := by
    obtain ⟨tail, htail⟩ := hfront
    have hne : p.names ≠ [] := by
      intro hnil
      simp [hnil] at htail
    obtain ⟨next, rest, hrest⟩ :=
      List.exists_cons_of_ne_nil (List.append_ne_nil_of_right_ne_nil tail
      (List.cons_ne_nil (p.names.getLast hne) []))
    refine ⟨next, rest, ?_⟩
    rw [← List.dropLast_concat_getLast hne, ← htail, List.append_assoc, List.append_assoc, hrest]
    rfl
  have hkeeps := (gains_makeFolder hmake).keepsFolders
  have honward : onward here name = here ++ [name] := if_neg hname
  -- in the old tree the names lead up to the free place, so that nothing behind it leads back
  have hnext : next ≠ ".." := by
    rw [hnames, backsInside_append hhere, backsInside, hfolder, honward] at hback
    dsimp only at hback
    rw [backsInside, hnone] at hback
    rintro rfl
    simp at hback
  have hbehind : (t.put ⟨here, hfolder⟩ name .folder hfree).entryAt (here ++ [name] ++ [next])
      = none := by
    rw [entryAt_put, if_neg (by simp), Option.eq_none_iff_forall_ne_some]
    intro e' he'
    rw [folder_of_entryAt he'] at hnone
    cases hnone
  -- in the new tree they lead one name further, where there is nothing
  intro hfind
  obtain ⟨place, e⟩ := x
  obtain ⟨hfollow, he, -⟩ := find_eq_ok_iff.mp hfind
  rw [hnames] at hfollow
  obtain ⟨between, hbetween, hlead⟩ := follow_append_eq_ok_iff.mp hfollow
  obtain rfl : here = between := Except.ok.inj ((hkeeps.follow hhere).symm.trans hbetween)
  rw [follow_cons_eq_ok_iff, honward, follow_cons_eq_ok_iff] at hlead
  obtain ⟨-, -, -, -, hrest⟩ := hlead
  rw [onward, if_neg hnext] at hrest
  cases rest with
  | nil =>
    obtain rfl := Except.ok.inj hrest
    rw [hbehind] at he
    cases he
  | cons name' rest =>
    have hthere := (follow_cons_eq_ok_iff.mp hrest).1
    rw [hbehind] at hthere
    cases hthere

theorem KeepsFolders.stepsBackInside {path : String} (h : KeepsFolders t t')
    (hback : StepsBackInside t path) :
    StepsBackInside t' path := h.backsInside hback

/-- **Making the folders of a file does not make its path lead anywhere**, if the path steps back
over nothing but folders that exist. -/
theorem find_ne_ok_of_makeParents {path : String} (hback : StepsBackInside t path)
    (h : ∀ x, t.find (.ofText path) ≠ .ok x) (x : Place × Entry) :
    (t.makeParents path).2.find (.ofText path) ≠ .ok x := by
  have hall := @makeParents_induction t
    (fun t => StepsBackInside t path ∧ ∀ x, t.find (.ofText path) ≠ .ok x) path ?_ ⟨hback, h⟩
  · exact hall.2 x
  · rintro t t' front hfront ⟨hback, h⟩ hmake
    exact ⟨(gains_makeFolder hmake).keepsFolders.stepsBackInside hback,
      find_ne_ok_of_makeFolder hback hfront hmake h⟩

/-- **Making the folders of a file changes no file**, and the path of the file leads to
what it led to before. -/
theorem sameFiles_makeParents {path : String} (hback : StepsBackInside t path) :
    SameFiles path t (t.makeParents path).2 := by
  have hgains := gains_makeParents t path
  have hfind : ∀ x, (t.makeParents path).2.find (.ofText path) = .ok x
      ↔ t.find (.ofText path) = .ok x := by
    rintro ⟨place, e⟩
    refine ⟨fun hthere => ?_, hgains.find⟩
    by_contra hnot
    by_cases hnone : ∀ x, t.find (.ofText path) ≠ .ok x
    · exact find_ne_ok_of_makeParents hback hnone _ hthere
    · obtain ⟨⟨place', e'⟩, hx⟩ := not_forall_not.mp hnone
      exact hnot (Except.ok.inj ((hgains.find hx).symm.trans hthere) ▸ hx)
  refine ⟨fun place content => hgains.file_iff, ?_, ?_⟩
  · rw [Bool.eq_iff_iff, leads_eq_true_iff, leads_eq_true_iff]
    simp only [hfind]
  · have hoption : ∀ {t : FileTree} {content : String},
        (t.read path).toOption = some content ↔ t.read path = .ok content := by
      intro t content
      cases t.read path <;> simp [Except.toOption]
    refine Option.ext fun content => ?_
    rw [hoption, hoption, read_eq_ok_iff, read_eq_ok_iff]
    simp only [hfind]

/-! ## Writing -/

/-- **A file is written** in a folder that exists, and not in the place of a folder. -/
theorem write_eq_ok {path content : String} (h : t.write path content = .ok t') :
    ∃ here name, checked path = .ok (.ofText path) ∧ (Path.ofText path).ending = .name
      ∧ Ends t (.ofText path) here name ∧ ∃ hfree, t' = t.put here name (.file content) hfree := by
  unfold write at h
  split at h
  · cases h
  rename_i p hchecked
  obtain rfl := (checked_eq_ok_iff.mp hchecked).2.2
  split at h
  · cases h
  rename_i here name hplace
  unfold filePlace at hplace
  split at hplace
  · split at hplace <;> cases hplace
  · split at hplace <;> cases hplace
  rename_i ending last hlast hpoint
  split at hplace
  · cases hplace
  rename_i folder hholder
  split at hplace
  · cases hplace
  rename_i hfile
  split at hplace
  · cases hplace
  rename_i hshort
  obtain ⟨rfl, rfl⟩ := Prod.mk.inj (Except.ok.inj hplace)
  rw [not_or] at hfile
  split at h
  · cases h
  have hending : (Path.ofText path).ending = .name := by
    cases hcase : (Path.ofText path).ending with
    | name => rfl
    | slash => exact absurd hcase hfile.1
    | point => exact absurd hcase hpoint
  exact ⟨folder, last, hchecked, hending,
    ⟨hlast, hfile.2, Nat.le_of_not_lt hshort, holder_eq_ok_iff.mp hholder⟩, _,
    (Except.ok.inj h).symm⟩

/-- **What was written is what the path leads to.** -/
theorem find_of_write {path content : String} (h : t.write path content = .ok t') :
    checked path = .ok (.ofText path)
      ∧ ∃ place, t'.find (.ofText path) = .ok (place, .file content) := by
  obtain ⟨here, name, hchecked, hending, hends, hfree, rfl⟩ := write_eq_ok h
  have hthere : (t.put here name (.file content) hfree).entryAt (here.1 ++ [name])
      = some (.file content) := by
    rw [entryAt_put, if_pos rfl]
  exact ⟨hchecked, here.1 ++ [name],
    find_eq_ok_iff.mpr ⟨hends.follow_names (keepsFolders_put hfree), hthere, Or.inr hending⟩⟩

/-- **Writing a file keeps the folders.** -/
theorem keepsFolders_write {path content : String} (h : t.write path content = .ok t') :
    KeepsFolders t t' := by
  obtain ⟨here, name, -, -, -, hfree, rfl⟩ := write_eq_ok h
  exact keepsFolders_put hfree

/-! ## Files that are there -/

/-- **A path to a file ends in a folder that exists.** -/
theorem ends_of_find {path content : String}
    (h : t.find (.ofText path) = .ok (place, .file content)) :
    (Path.ofText path).ending = .name
      ∧ ∃ (here : t.Folder) (name : String), place = here.1 ++ [name]
        ∧ Ends t (.ofText path) here name := by
  obtain ⟨hfollow, hfile, hending⟩ := find_eq_ok_iff.mp h
  have hending : (Path.ofText path).ending = .name := hending.resolve_left (by simp)
  refine ⟨hending, ?_⟩
  obtain ⟨name, hlast⟩ : ∃ name, (Path.ofText path).names.getLast? = some name :=
    ⟨_, List.getLast?_eq_some_getLast (Path.names_ne_nil hending)⟩
  obtain ⟨first, hfirst⟩ := List.getLast?_eq_some_iff.mp hlast
  rw [hfirst] at hfollow
  obtain ⟨here, hhere, hname⟩ := follow_append_eq_ok_iff.mp hfollow
  obtain ⟨hfolder, hshort, hplace⟩ := follow_cons_eq_ok_iff.mp hname
  obtain rfl : onward here name = place := Except.ok.inj hplace
  -- what holds a folder is a folder, so that two points do not lead to a file
  have hback : name ≠ ".." := by
    rintro rfl
    rw [onward, if_pos rfl] at hfile
    rcases List.eq_nil_or_concat here with rfl | ⟨outer, inner, rfl⟩
    · rw [List.dropLast_nil, hfolder] at hfile
      cases hfile
    · rw [List.concat_eq_append, List.dropLast_concat] at hfile
      rw [List.concat_eq_append] at hfolder
      rw [folder_of_entryAt hfolder] at hfile
      cases hfile
  refine ⟨⟨here, hfolder⟩, name, if_neg hback, hlast, hback, hshort, ?_⟩
  rw [hfirst, List.dropLast_concat]
  exact hhere

/-- **A folder that is there is not made again.** -/
theorem makeFolder_of_follow (hnull : ∀ name ∈ p.names, '\x00' ∉ name.toList)
    (hsize : p.size ≤ longestPath) (hfollow : t.follow (start p) p.names = .ok here)
    (hfolder : t.entryAt here = some .folder) : t.makeFolder p = .ok t := by
  have hany : ¬p.names.any (fun name => name.toList.contains '\x00') = true := by simpa using hnull
  unfold makeFolder
  rw [if_neg hany, if_neg (Nat.not_lt.mpr hsize)]
  cases hlast : p.names.getLast? with
  | none => rfl
  | some name =>
    obtain ⟨first, hfirst⟩ := List.getLast?_eq_some_iff.mp hlast
    rw [hfirst] at hfollow
    obtain ⟨outer, houter, hname⟩ := follow_append_eq_ok_iff.mp hfollow
    obtain ⟨hthere, hshort, hhere⟩ := follow_cons_eq_ok_iff.mp hname
    have hholder : t.holder p = .ok ⟨outer, hthere⟩ := by
      rw [holder_eq_ok_iff, hfirst, List.dropLast_concat]
      exact houter
    rw [hholder]
    dsimp only
    by_cases hback : name = ".."
    · rw [if_pos hback]
    · obtain rfl : outer ++ [name] = here := (if_neg hback).symm.trans (Except.ok.inj hhere)
      rw [if_neg hback, if_neg (Nat.not_lt.mpr hshort)]
      split
      · rename_i hnone
        simp [hnone] at hfolder
      · rfl
      · rename_i hfile
        simp [hfile] at hfolder

/-- **The folders of a file that is there are not made again.** -/
theorem makeParents_of_find {path content : String} (hchecked : checked path = .ok (.ofText path))
    (h : t.find (.ofText path) = .ok (place, .file content)) :
    t.makeParents path = (.ok (), t) := by
  obtain ⟨-, here, name, rfl, hends⟩ := ends_of_find h
  obtain ⟨hnull, ⟨-, hlength⟩, -⟩ := checked_eq_ok_iff.mp hchecked
  unfold makeParents
  split
  · rfl
  rename_i q hparent
  have hsize : q.size ≤ longestPath := Nat.le_trans (Path.size_parent_le hparent) hlength
  unfold Path.parent? at hparent
  split at hparent
  · cases hparent
  obtain rfl := Option.some.inj hparent
  have hmake :
      t.makeFolder ⟨(Path.ofText path).absolute, (Path.ofText path).names.dropLast, .name⟩
        = .ok t := by
    refine makeFolder_of_follow (fun inner hinner hmem => hnull ?_) hsize hends.follow here.2
    exact Path.mem_of_mem_names ((List.dropLast_sublist _).subset hinner) hmem
  cases hnames : (Path.ofText path).names.dropLast.reverse with
  | nil => rfl
  | cons inner outer =>
    have houter : (inner :: outer).reverse = (Path.ofText path).names.dropLast := by
      rw [← hnames, List.reverse_reverse]
    rw [makeFolders, houter, hmake]

/-- **A file that is there can be written.** -/
theorem exists_write {path content new : String} (hchecked : checked path = .ok (.ofText path))
    (h : t.find (.ofText path) = .ok (place, .file content)) : ∃ t', t.write path new = .ok t' := by
  obtain ⟨hending, here, name, rfl, hends⟩ := ends_of_find h
  have hfile : t.entryAt (here.1 ++ [name]) = some (.file content) := (find_eq_ok_iff.mp h).2.1
  have hfree : t.entryAt (here.1 ++ [name]) ≠ some .folder := by simp [hfile]
  have hplace : t.filePlace (.ofText path) = .ok (here, name) := by
    have hholder : t.holder (.ofText path) = .ok here := holder_eq_ok_iff.mpr hends.follow
    unfold filePlace
    rw [hending, hends.last]
    dsimp only
    rw [hholder]
    dsimp only
    rw [if_neg (by simp [hends.ne_back]), if_neg (Nat.not_lt.mpr hends.short)]
  refine ⟨t.put here name (.file new) hfree, ?_⟩
  rw [write, hchecked]
  dsimp only
  rw [hplace]
  exact dif_neg hfree

end

end RecordQuery.FileTree
