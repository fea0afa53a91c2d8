import RecordQuery.Proofs.Schema.Resolution
import RecordQuery.Predicate.Translation

/-!
# What tells fields apart in a store

A field has two names that are made of its path: the dotted text by which queries name it, and the
lookup by which a store does, where double underscores take the place of the points. A consistent
registry has no points in names, so the dotted text determines the field. Nothing keeps
underscores out of names, and `a__b` is the lookup of a field `a__b` as well as that of a field
`b` behind a relation `a` (`lookup_shared`).

There are just two ways to share a lookup, and both show at the first names in which the paths
differ (`Blurs`). Behind the shorter name its path goes on, and the longer name hides the
separator that follows there: it goes on like the separator, or it ends inside the separator,
which takes an underscore at its end and another one at the beginning of the name behind the
shorter one. So lookups tell siblings apart whatever their names are
(`lookup_ne_of_siblings`), and all fields where no name holds a double underscore or ends with
an underscore (`lookup_ne_of_clear`).
-/

namespace RecordQuery

/-! ## Paths that share a lookup -/

/-- **A name of one path hides a separator of the other**: behind equal names, the first path has
a name and goes on with `next`, and the second path has in the place of that name a longer one.
The longer name continues it by a double underscore, or by one underscore where `next` begins with
another and the second path goes on too. -/
def Blurs (names names' : List String) : Prop :=
  ∃ before n next rest n' rest',
    names = before ++ n :: next :: rest ∧ names' = before ++ n' :: rest'
    ∧ ((n.toList ++ ['_', '_']) <+: n'.toList
      ∨ n'.toList = n.toList ++ ['_'] ∧ next.toList.head? = some '_' ∧ rest' ≠ [])

/-- A name that keeps clear of the separator: it holds no double underscore and does not
end with an underscore. -/
def KeepsClear (name : String) : Prop :=
  ¬ ['_', '_'] <:+: name.toList ∧ name.toList.getLast? ≠ some '_'

instance (name : String) : Decidable (KeepsClear name) :=
  inferInstanceAs (Decidable (¬ ['_', '_'] <:+: name.toList ∧ name.toList.getLast? ≠ some '_'))

theorem Blurs.cons {names names' : List String} (h : Blurs names names') (n : String) :
    Blurs (n :: names) (n :: names') := by
  obtain ⟨before, m, next, rest, m', rest', rfl, rfl, hblurs⟩ := h
  exact ⟨n :: before, m, next, rest, m', rest', rfl, rfl, hblurs⟩

theorem not_blurs_of_clear {names names' : List String} (h : ∀ n ∈ names', KeepsClear n) :
    ¬ Blurs names names' := by
  rintro ⟨before, n, next, rest, n', rest', -, rfl, hblurs⟩
  obtain ⟨hdouble, hlast⟩ := h n' (List.mem_append_right before List.mem_cons_self)
  rcases hblurs with ⟨more, hmore⟩ | ⟨hends, -⟩
  · exact hdouble ⟨n.toList, more, by rw [← hmore]⟩
  · exact hlast (by rw [hends, List.getLast?_concat])

/-- **Paths that blur do not lead to siblings**: they part before their last names. -/
theorem Blurs.dropLast_ne {names names' : List String} (h : Blurs names names') :
    names.dropLast ≠ names'.dropLast := by
  obtain ⟨before, n, next, rest, n', rest', rfl, rfl, hblurs⟩ := h
  have hlonger : n.toList.length < n'.toList.length := by
    rcases hblurs with hprefix | ⟨heq, -⟩
    · exact Nat.lt_of_lt_of_le (by simp) hprefix.length_le
    · simp [heq]
  intro hdrop
  rw [List.dropLast_append_cons, List.dropLast_append_cons, List.dropLast_cons_cons] at hdrop
  have hrest := List.append_cancel_left hdrop
  cases rest' with
  | nil => exact absurd hrest (List.cons_ne_nil _ _)
  | cons next' rest' =>
    rw [List.dropLast_cons_cons] at hrest
    obtain ⟨rfl, -⟩ := List.cons.inj hrest
    exact Nat.lt_irrefl _ hlonger

/-- What a lookup has behind the first name. -/
def behindFirst : List String → List Char
  | [] => []
  | n :: names => '_' :: '_' :: (n.toList ++ behindFirst names)

theorem toList_lookup (type : FieldType) (n : String) (names : List String) :
    (FieldRef.lookup ⟨n :: names, type⟩).toList = n.toList ++ behindFirst names := by
  unfold FieldRef.lookup
  rw [String.toList_intercalate]
  induction names generalizing n with
  | nil => exact (List.intercalate_singleton).trans (List.append_nil _).symm
  | cons m names ih =>
    have hrest : ['_', '_'].intercalate (m.toList :: names.map String.toList)
        = m.toList ++ behindFirst names := ih m
    show ['_', '_'].intercalate (n.toList :: m.toList :: names.map String.toList)
      = n.toList ++ behindFirst (m :: names)
    rw [List.intercalate_cons_cons, hrest, List.append_assoc]
    rfl

/-- **A name that is longer than the other** hides the end of that one. -/
theorem blurs_of_append {n n' : String} {names names' : List String} {more : List Char}
    (hmore : more ≠ []) (hn : n'.toList = n.toList ++ more) (hnames : ∀ m ∈ names, m ≠ "")
    (h : behindFirst names = more ++ behindFirst names') : Blurs (n :: names) (n' :: names') := by
  cases names with
  | nil => exact absurd (List.append_eq_nil_iff.mp h.symm).1 hmore
  | cons next names =>
    refine ⟨[], n, next, names, n', names', rfl, rfl, ?_⟩
    obtain _ | ⟨c, more⟩ := more
    · exact absurd rfl hmore
    obtain ⟨rfl, hrest⟩ : '_' = c
        ∧ '_' :: (next.toList ++ behindFirst names) = more ++ behindFirst names' :=
      List.cons.inj h
    cases more with
    | cons d more =>
      obtain ⟨rfl, -⟩ := List.cons.inj hrest
      exact Or.inl ⟨more, by rw [hn, List.append_assoc]; rfl⟩
    | nil =>
      cases names' with
      | nil => exact absurd hrest (List.cons_ne_nil _ _)
      | cons m names' =>
        refine Or.inr ⟨hn, ?_, List.cons_ne_nil _ _⟩
        -- the name that follows is not empty, so the second underscore of the
        -- separator is its first character
        have hnext : next.toList ++ behindFirst names = '_' :: (m.toList ++ behindFirst names') :=
          (List.cons.inj hrest).2
        cases hchars : next.toList with
        | nil => exact absurd (String.toList_eq_nil_iff.mp hchars) (hnames next List.mem_cons_self)
        | cons d chars =>
          rw [hchars] at hnext
          exact congrArg some (List.cons.inj hnext).1

/-- Of two different names the longer one is such a name. -/
theorem blurs_of_ne {n n' : String} {names names' : List String} (hn : n ≠ n')
    (hnames : ∀ m ∈ names, m ≠ "") (hnames' : ∀ m ∈ names', m ≠ "")
    (h : n.toList ++ behindFirst names = n'.toList ++ behindFirst names') :
    Blurs (n :: names) (n' :: names') ∨ Blurs (n' :: names') (n :: names) := by
  have hlonger : ∀ {k k' : String} {more : List Char}, k ≠ k' → k'.toList = k.toList ++ more →
      more ≠ [] := by
    rintro k k' more hk heq rfl
    exact hk (String.toList_inj.mp (heq.trans (List.append_nil _))).symm
  rcases List.append_eq_append_iff.mp h with ⟨more, hmore, hrest⟩ | ⟨more, hmore, hrest⟩
  · exact Or.inl (blurs_of_append (hlonger hn hmore) hmore hnames hrest)
  · exact Or.inr (blurs_of_append (hlonger hn.symm hmore) hmore hnames' hrest)

/-- **Different paths with one lookup blur.** The induction is on the names of the first path, up
to the first that differs from its counterpart. -/
theorem blurs_of_behindFirst {n n' : String} {names names' : List String}
    (hne : n :: names ≠ n' :: names') (hnames : ∀ m ∈ names, m ≠ "")
    (hnames' : ∀ m ∈ names', m ≠ "")
    (h : n.toList ++ behindFirst names = n'.toList ++ behindFirst names') :
    Blurs (n :: names) (n' :: names') ∨ Blurs (n' :: names') (n :: names) := by
  induction names generalizing n n' names' with
  | nil =>
    rcases eq_or_ne n n' with rfl | hn
    · have hrest : [] = behindFirst names' := List.append_cancel_left h
      cases names' with
      | nil => exact absurd rfl hne
      | cons m' names' => exact absurd hrest.symm (List.cons_ne_nil _ _)
    · exact blurs_of_ne hn hnames hnames' h
  | cons m names ih =>
    rcases eq_or_ne n n' with rfl | hn
    · have hrest : behindFirst (m :: names) = behindFirst names' := List.append_cancel_left h
      cases names' with
      | nil => exact absurd hrest (List.cons_ne_nil _ _)
      | cons m' names' =>
        have hnext : m.toList ++ behindFirst names = m'.toList ++ behindFirst names' :=
          List.cons.inj (List.cons.inj hrest).2 |>.2
        have hne' : m :: names ≠ m' :: names' := fun heq => hne (congrArg (n :: ·) heq)
        have hblurs :=
          ih hne' (List.forall_mem_cons.mp hnames).2 (List.forall_mem_cons.mp hnames').2 hnext
        exact hblurs.imp (·.cons n) (·.cons n)
    · exact blurs_of_ne hn hnames hnames' h

/-- **Different paths of names that are not empty have different lookups unless they blur.** -/
theorem blurs_of_lookup_eq {names names' : List String} {type type' : FieldType}
    (hne : names ≠ names') (hnil : names ≠ []) (hnil' : names' ≠ [])
    (hnames : ∀ m ∈ names, m ≠ "") (hnames' : ∀ m ∈ names', m ≠ "")
    (h : FieldRef.lookup ⟨names, type⟩ = FieldRef.lookup ⟨names', type'⟩) :
    Blurs names names' ∨ Blurs names' names := by
  cases names with
  | nil => exact absurd rfl hnil
  | cons n names =>
    cases names' with
    | nil => exact absurd rfl hnil'
    | cons n' names' =>
      have hchars := congrArg String.toList h
      rw [toList_lookup, toList_lookup] at hchars
      exact blurs_of_behindFirst hne (List.forall_mem_cons.mp hnames).2
        (List.forall_mem_cons.mp hnames').2 hchars

namespace Schema

variable {s : Schema} {F G : Field}

/-- The names of a reached path are not empty. -/
theorem Reaches.ne_empty (h : s.Reaches F) : ∀ n ∈ F.path, n ≠ "" :=
  h.forall_mem fun hf => (sound_of_declares hf).name_ne_empty

/-- Different fields that share a lookup have paths that blur. -/
theorem Reaches.blurs (hF : s.Reaches F) (hG : s.Reaches G) (hne : F ≠ G)
    (h : F.ref.lookup = G.ref.lookup) :
    Blurs F.path G.path ∨ Blurs G.path F.path :=
  blurs_of_lookup_eq (fun hpath => hne (hF.eq_of_path hG hpath)) hF.path_ne_nil hG.path_ne_nil
    hF.ne_empty hG.ne_empty h

/-- **Lookups tell siblings apart**, whatever their names are. -/
theorem lookup_ne_of_siblings (hF : F ∈ s.fields) (hG : G ∈ s.fields) (hne : F ≠ G)
    (hsiblings : F.path.dropLast = G.path.dropLast) : F.ref.lookup ≠ G.ref.lookup := by
  intro h
  rcases (mem_fields_iff.mp hF).blurs (mem_fields_iff.mp hG) hne h with hblurs | hblurs
  · exact hblurs.dropLast_ne hsiblings
  · exact hblurs.dropLast_ne hsiblings.symm

/-- **Lookups tell fields apart** where names keep clear of the separator. -/
theorem lookup_ne_of_clear (hF : F ∈ s.fields) (hG : G ∈ s.fields) (hne : F ≠ G)
    (hclearF : ∀ n ∈ F.path, KeepsClear n) (hclearG : ∀ n ∈ G.path, KeepsClear n) :
    F.ref.lookup ≠ G.ref.lookup := by
  intro h
  rcases (mem_fields_iff.mp hF).blurs (mem_fields_iff.mp hG) hne h with hblurs | hblurs
  · exact not_blurs_of_clear hclearG hblurs
  · exact not_blurs_of_clear hclearF hblurs

/-- **Two fields of a schema have two dotted texts, and two lookups unless their paths blur.** -/
theorem fields_told_apart (hF : F ∈ s.fields) (hG : G ∈ s.fields) (hne : F ≠ G) :
    F.dotted ≠ G.dotted
      ∧ (¬ Blurs F.path G.path → ¬ Blurs G.path F.path → F.ref.lookup ≠ G.ref.lookup) := by
  have hreachF : s.Reaches F := mem_fields_iff.mp hF
  have hreachG : s.Reaches G := mem_fields_iff.mp hG
  refine ⟨fun hdotted => hne (hreachF.eq_of_dotted hreachG hdotted), fun hnot hnot' hlookup => ?_⟩
  exact (hreachF.blurs hreachG hne hlookup).elim hnot hnot'

/-- The name of an author and a field `author_name` are two fields with two lookups. -/
theorem fields_told_apart_author :
    let name := FieldDef.plain "name" .text
    let authorName := FieldDef.plain "author_name" .text
    let registry :=
      (Registry.empty.withModel "post" ⟨[.relation "author" "user", authorName]⟩).withModel "user"
        ⟨[name]⟩
    let F : Field := ⟨["author", "name"], "user", name⟩
    let G : Field := ⟨["author_name"], "post", authorName⟩
    ∃ s : Schema, build registry "post" .standard = .ok s ∧ F ∈ s.fields ∧ G ∈ s.fields ∧ F ≠ G
      ∧ ¬ Blurs F.path G.path ∧ ¬ Blurs G.path F.path ∧ F.dotted ≠ G.dotted
        ∧ F.ref.lookup ≠ G.ref.lookup := by
  intro name authorName registry F G
  let s : Schema := ⟨registry, "post", .standard, by decide +kernel, by decide +kernel⟩
  have hF : F ∈ s.fields := mem_fields_iff.mpr (mem_walk_iff.mp (by decide +kernel))
  have hG : G ∈ s.fields := mem_fields_iff.mpr (mem_walk_iff.mp (by decide +kernel))
  have hne : F ≠ G := by decide
  have hclear : ∀ n ∈ F.path ++ G.path, KeepsClear n := by decide +kernel
  have hnot : ¬ Blurs F.path G.path := not_blurs_of_clear (List.forall_mem_append.mp hclear).2
  have hnot' : ¬ Blurs G.path F.path := not_blurs_of_clear (List.forall_mem_append.mp hclear).1
  obtain ⟨hdotted, hlookup⟩ := fields_told_apart hF hG hne
  exact ⟨s, build_eq_ok_iff.mpr ⟨rfl, rfl, rfl⟩, hF, hG, hne, hnot, hnot', hdotted,
    hlookup hnot hnot'⟩

/-- **Two fields may share a lookup**, in both ways: `a__b` is that of a field with this name and
of a field `b` behind a relation `a`, and `a___b` is that of a field `_b` behind `a` and of a
field `b` behind a relation `a_`. -/
theorem lookup_shared :
    let b := FieldDef.plain "b" .number
    let lowB := FieldDef.plain "_b" .number
    let aB := FieldDef.plain "a__b" .number
    let registry :=
      (Registry.empty.withModel "post"
        ⟨[.relation "a" "user", .relation "a_" "user", aB]⟩).withModel
      "user" ⟨[b, lowB]⟩
    let F : Field := ⟨["a", "b"], "user", b⟩
    let G : Field := ⟨["a__b"], "post", aB⟩
    let H : Field := ⟨["a", "_b"], "user", lowB⟩
    let K : Field := ⟨["a_", "b"], "user", b⟩
    ∃ s : Schema, build registry "post" .standard = .ok s
      ∧ (F ∈ s.fields ∧ G ∈ s.fields ∧ F ≠ G ∧ F.ref.lookup = G.ref.lookup)
      ∧ H ∈ s.fields ∧ K ∈ s.fields ∧ H ≠ K ∧ H.ref.lookup = K.ref.lookup := by
  intro b lowB aB registry F G H K
  let s : Schema := ⟨registry, "post", .standard, by decide +kernel, by decide +kernel⟩
  have hF : F ∈ s.fields := mem_fields_iff.mpr (mem_walk_iff.mp (by decide +kernel))
  have hG : G ∈ s.fields := mem_fields_iff.mpr (mem_walk_iff.mp (by decide +kernel))
  have hH : H ∈ s.fields := mem_fields_iff.mpr (mem_walk_iff.mp (by decide +kernel))
  have hK : K ∈ s.fields := mem_fields_iff.mpr (mem_walk_iff.mp (by decide +kernel))
  exact ⟨s, build_eq_ok_iff.mpr ⟨rfl, rfl, rfl⟩, ⟨hF, hG, by decide, by decide +kernel⟩, hH, hK,
    by decide, by decide +kernel⟩

end Schema
end RecordQuery
