import Mathlib.Data.List.Basic
import RecordQuery.Files.Path

/-!
# The names of a path

The names of a path are parts of its text (`names_sublist`). So they have no character that is
not in the text (`mem_of_mem_names`), and the path of the folder that holds a file takes no
more bytes than the path of the file (`size_parent_le`): whatever can be asked for a file can
be asked for its folder.
-/

namespace RecordQuery.Path

theorem parts_ne_nil (cs : List Char) : parts cs ≠ [] := by
  cases cs with
  | nil => exact List.cons_ne_nil _ _
  | cons c cs =>
    rw [parts]
    split
    · exact List.cons_ne_nil _ _
    · split <;> exact List.cons_ne_nil _ _

/-- What stands between slashes stands in the text. -/
theorem mem_of_mem_parts {c : Char} {cs part : List Char} (hpart : part ∈ parts cs)
    (hc : c ∈ part) : c ∈ cs := by
  induction cs generalizing part with
  | nil =>
    obtain rfl := List.mem_singleton.mp hpart
    exact hc
  | cons d cs ih =>
    rw [parts] at hpart
    split at hpart
    · rcases List.mem_cons.mp hpart with rfl | hpart
      · cases hc
      · exact List.mem_cons_of_mem _ (ih hpart hc)
    · split at hpart
      · rename_i hnil
        exact absurd hnil (parts_ne_nil cs)
      · rename_i first rest hparts
        rcases List.mem_cons.mp hpart with rfl | hpart
        · rcases List.mem_cons.mp hc with rfl | hc
          · exact List.mem_cons_self
          · exact List.mem_cons_of_mem _ (ih (hparts ▸ List.mem_cons_self) hc)
        · exact List.mem_cons_of_mem _ (ih (hparts ▸ List.mem_cons_of_mem _ hpart) hc)

/-- How many bytes names take with a slash for each. -/
def weight (names : List String) : Nat := (names.map String.utf8ByteSize).foldr (· + 1 + ·) 0

@[simp] theorem weight_cons (name : String) (names : List String) :
    weight (name :: names) = name.utf8ByteSize + 1 + weight names := rfl

theorem weight_le_of_sublist {names more : List String} (h : names.Sublist more) :
    weight names ≤ weight more := by
  induction h with
  | slnil => exact Nat.le_refl _
  | cons name _ ih =>
    rw [weight_cons]
    omega
  | cons_cons name _ ih =>
    rw [weight_cons, weight_cons]
    omega

/-- The parts of a text take as many bytes as the text, and a slash more. -/
theorem weight_parts (cs : List Char) :
    weight ((parts cs).map String.ofList) = (String.ofList cs).utf8ByteSize + 1 := by
  induction cs with
  | nil => rfl
  | cons c cs ih =>
    rw [parts, String.ofList_cons, String.utf8ByteSize_append, String.utf8ByteSize_singleton]
    split
    · rename_i hc
      have hslash : c.utf8Size = 1 := hc ▸ rfl
      rw [List.map_cons, weight_cons, ih, hslash]
      simp
      omega
    · split
      · rename_i hnil
        exact absurd hnil (parts_ne_nil cs)
      · rename_i first rest hparts
        rw [hparts, List.map_cons, weight_cons] at ih
        rw [List.map_cons, weight_cons, String.ofList_cons, String.utf8ByteSize_append,
          String.utf8ByteSize_singleton]
        omega

/-- The names of a path are among the parts of its text. -/
theorem names_sublist (text : String) :
    (ofText text).names.Sublist ((parts text.toList).map String.ofList) :=
  List.filter_sublist.map _

/-- **The folder of a file has no longer path than the file.** -/
theorem size_parent_le {text : String} {p : Path} (h : (ofText text).parent? = some p) :
    p.size ≤ text.utf8ByteSize := by
  have hfolder : (ofText text).names.dropLast.Sublist (ofText text).names := List.dropLast_sublist _
  unfold parent? at h
  split at h
  · cases h
  obtain rfl := Option.some.inj h
  show weight (ofText text).names.dropLast - (if (ofText text).absolute then 0 else 1) ≤ _
  by_cases habsolute : (ofText text).absolute = true
  · -- the part in front of the first slash is empty, so that the slash in front of the names is
    -- counted already
    obtain ⟨cs, hcs⟩ : ∃ cs, text.toList = '/' :: cs :=
      List.head?_eq_some_iff.mp (of_decide_eq_true habsolute)
    have hparts : parts text.toList = [] :: parts cs := by
      rw [hcs, parts, if_pos rfl]
    have hnames : (ofText text).names.Sublist ((parts cs).map String.ofList) := by
      show (((parts text.toList).filter _).map String.ofList).Sublist _
      rw [hparts, List.filter_cons_of_neg (by simp)]
      exact List.filter_sublist.map _
    have htext : text.utf8ByteSize = (String.ofList cs).utf8ByteSize + 1 := by
      rw [← @String.ofList_toList text, hcs, String.ofList_cons, String.utf8ByteSize_append,
        String.utf8ByteSize_singleton, Nat.add_comm]
      rfl
    rw [if_pos habsolute, htext, ← weight_parts]
    exact weight_le_of_sublist (hfolder.trans hnames)
  · have hle := weight_le_of_sublist (hfolder.trans (names_sublist text))
    rw [weight_parts, String.ofList_toList] at hle
    rw [if_neg habsolute]
    omega

/-- A name of a path has no character that its text does not have. -/
theorem mem_of_mem_names {text name : String} {c : Char} (hname : name ∈ (ofText text).names)
    (hc : c ∈ name.toList) :
    c ∈ text.toList := by
  obtain ⟨part, hpart, rfl⟩ := List.mem_map.mp ((names_sublist text).subset hname)
  rw [String.toList_ofList] at hc
  exact mem_of_mem_parts hpart hc

/-- A path that ends with a name has one. -/
theorem names_ne_nil {text : String} (h : (ofText text).ending = .name) :
    (ofText text).names ≠ [] := by
  have hending : endingOf (parts text.toList) = .name := h
  obtain ⟨last, hlast⟩ : ∃ last, (parts text.toList).getLast? = some last :=
    ⟨_, List.getLast?_eq_some_getLast (parts_ne_nil _)⟩
  obtain ⟨first, hfirst⟩ := List.getLast?_eq_some_iff.mp hlast
  unfold endingOf at hending
  split at hending
  · cases hending
  rename_i hpoint
  split at hending
  · cases hending
  rename_i hslash
  have hne : last ≠ [] := fun hnil => hslash (hnil ▸ hlast)
  have hne' : last ≠ ['.'] := by
    intro hsingle
    refine hpoint ?_
    rw [hfirst, List.filter_append, List.filter_cons_of_pos (by simpa using hne), List.filter_nil,
      List.getLast?_concat, hsingle]
  intro hnil
  have hmem : String.ofList last ∈ (ofText text).names := by
    refine List.mem_map.mpr ⟨last, List.mem_filter.mpr ⟨?_, ?_⟩, rfl⟩
    · rw [hfirst]
      exact List.mem_append_right _ List.mem_cons_self
    · simp [hne, hne']
  rw [hnil] at hmem
  cases hmem

end RecordQuery.Path
