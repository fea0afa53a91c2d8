/-!
# Maps keyed by names

Models, the fields of a description and the members of a JSON object are found by name and listed
in the order of their names, which is the order of code points. A `NameMap` is the list of its
entries together with the proof that the names increase; so no name occurs twice, and two maps with
the same entries are the same map.

Insertion puts a new name at its place and gives an old one the new value (`get?_insert`). The list
operation `insertEntry` is separate because the members of a JSON object use it too.
-/

namespace RecordQuery

variable {α : Type}

/-- **Puts an entry at its place** in a list sorted by name, replacing the entry of the same
name. -/
def insertEntry (name : String) (value : α) : List (String × α) → List (String × α)
  | [] => [(name, value)]
  | (k, v) :: rest =>
    if name < k then (name, value) :: (k, v) :: rest
    else if name = k then (name, value) :: rest
    else (k, v) :: insertEntry name value rest

/-- The names of a list of entries increase. -/
abbrev NamesIncrease (entries : List (String × α)) : Prop :=
  entries.Pairwise fun a b => a.1 < b.1

theorem mem_insertEntry {name : String} {value : α} {e : String × α}
    {entries : List (String × α)} (h : e ∈ insertEntry name value entries) :
    e = (name, value) ∨ e ∈ entries := by
  induction entries with
  | nil => simpa [insertEntry] using h
  | cons head rest ih =>
    obtain ⟨k, v⟩ := head
    rw [insertEntry] at h
    split at h
    · simpa using h
    · split at h
      · rcases List.mem_cons.mp h with h | h
        · exact Or.inl h
        · exact Or.inr (List.mem_cons_of_mem _ h)
      · rcases List.mem_cons.mp h with h | h
        · exact Or.inr (h ▸ List.mem_cons_self)
        · exact (ih h).imp_right (List.mem_cons_of_mem _)

/-- **Insertion keeps the names increasing.** -/
theorem namesIncrease_insertEntry (name : String) (value : α) {entries : List (String × α)}
    (h : NamesIncrease entries) : NamesIncrease (insertEntry name value entries) := by
  induction entries with
  | nil => simp [insertEntry, NamesIncrease]
  | cons head rest ih =>
    obtain ⟨k, v⟩ := head
    obtain ⟨hk, hr⟩ := List.pairwise_cons.mp h
    rw [insertEntry]
    split
    · rename_i hlt
      refine List.pairwise_cons.mpr ⟨fun e he => ?_, h⟩
      rcases List.mem_cons.mp he with rfl | he
      · exact hlt
      · exact String.lt_trans hlt (hk e he)
    · split
      · rename_i heq
        exact List.pairwise_cons.mpr ⟨fun e he => heq ▸ hk e he, hr⟩
      · rename_i hlt hne
        refine List.pairwise_cons.mpr ⟨fun e he => ?_, ih hr⟩
        rcases mem_insertEntry he with rfl | he
        · show k < name
          grind
        · exact hk e he

/-- **A finite map from names**, listed by increasing name. -/
structure NameMap (α : Type) where
  /-- The entries. -/
  entries : List (String × α)
  /-- The names increase. -/
  increasing : NamesIncrease entries
  deriving DecidableEq

namespace NameMap

/-- The map without entries. -/
def empty : NameMap α := ⟨[], List.Pairwise.nil⟩

instance : Inhabited (NameMap α) := ⟨empty⟩

/-- The map with one more name, or with a new value for an old name. -/
def insert (m : NameMap α) (name : String) (value : α) : NameMap α :=
  ⟨insertEntry name value m.entries, namesIncrease_insertEntry name value m.increasing⟩

/-- The value of a name. -/
def get? (m : NameMap α) (name : String) : Option α := m.entries.lookup name

/-- The names in increasing order. -/
def names (m : NameMap α) : List String := m.entries.map Prod.fst

/-- The map of a list of entries; of several with one name the last counts. -/
def ofList (entries : List (String × α)) : NameMap α :=
  entries.foldl (fun m e => m.insert e.1 e.2) empty

/-- **Inserting changes the value of one name.** -/
theorem get?_insert (m : NameMap α) (name : String) (value : α) (k : String) :
    (m.insert name value).get? k = if k = name then some value else m.get? k := by
  obtain ⟨entries, h⟩ := m
  show (insertEntry name value entries).lookup k = if k = name then some value else entries.lookup k
  clear h
  by_cases hk : k = name
  · subst hk
    rw [if_pos rfl]
    induction entries with
    | nil => simp [insertEntry]
    | cons head rest ih =>
      obtain ⟨k', v⟩ := head
      rw [insertEntry]
      split
      · simp
      · split
        · simp
        · rename_i hne
          simpa [List.lookup_cons, beq_eq_false_iff_ne.mpr hne] using ih
  · rw [if_neg hk]
    have hb : (k == name) = false := beq_eq_false_iff_ne.mpr hk
    induction entries with
    | nil => simp [insertEntry, List.lookup_cons, hb]
    | cons head rest ih =>
      obtain ⟨k', v⟩ := head
      rw [insertEntry]
      split
      · simp [List.lookup_cons, hb]
      · split
        · rename_i heq
          subst heq
          simp [List.lookup_cons, hb]
        · simp [List.lookup_cons, ih]

/-- The names of a map are those that have a value. -/
theorem isSome_get?_iff {m : NameMap α} {name : String} :
    (m.get? name).isSome = true ↔ name ∈ m.names := by
  unfold get? names
  simp

/-- A map that gives one value to some names. -/
theorem get?_ofList_const (names : List String) (value : α) (k : String) :
    (ofList (names.map (·, value))).get? k = if k ∈ names then some value else none := by
  have hfold : ∀ m : NameMap α,
      ((names.map (·, value)).foldl (fun m e => m.insert e.1 e.2) m).get? k
        = if k ∈ names then some value else m.get? k := by
    induction names with
    | nil => simp
    | cons n names ih =>
      intro m
      rw [List.map_cons, List.foldl_cons, ih, get?_insert]
      by_cases hk : k ∈ names
      · simp [hk]
      · by_cases hn : k = n <;> simp [hk, hn]
  exact hfold .empty

end NameMap
end RecordQuery
