import Mathlib.Data.List.Nodup
import RecordQuery.Proofs.Query.Paths
import RecordQuery.Proofs.Schema.Consistency
import RecordQuery.Schema.Resolve

/-!
# The fields that a schema reaches

A schema lists its fields by walking its registry from the root. What it reaches can be said
without the walk: some relations lead from the root to a model (`Schema.Leads`), the model
declares the field, and there are at most `maxDepth` of them (`Schema.Reaches`). Here the
two are proved to agree.

In a consistent registry a path says everything about the field at its end (`Reaches.eq_of_path`):
the names of a model are different, so the relations of the path are determined one after the
other. Names have no points, so the dotted text determines the path as well. Hence `Schema.fields`
lists every reached field once, by strictly increasing text (`pairwise_fields`), and
`Schema.find?` finds the field of a text (`find?_eq_some_iff`).
-/

namespace RecordQuery

/-- **A model of the registry declares a field.** -/
def Registry.Declares (r : Registry) (model : String) (f : FieldDef) : Prop :=
  ∃ m, r.model? model = some m ∧ f ∈ m.fields

namespace Schema

/-- **Relations lead from a model to another**: their names in order, where the options allow
every model that they enter. -/
inductive Leads (s : Schema) : String → List String → String → Prop
  | here {model : String} : Leads s model [] model
  | follow {model target last : String} {f : FieldDef} {names : List String}
      (hf : s.registry.Declares model f) (ht : f.type = .relation) (hm : f.model = some target)
      (ha : s.options.allows target = true) (h : Leads s target names last) :
      Leads s model (f.name :: names) last

/-- **A field that the schema reaches**: at most `maxDepth` relations lead from the root to the
model that declares it. A relation counts only if the options allow the model behind it. -/
def Reaches (s : Schema) (F : Field) : Prop :=
  ∃ before, s.Leads s.root before F.model ∧ before.length ≤ s.options.maxDepth
    ∧ s.registry.Declares F.model F.definition ∧ F.path = before ++ [F.definition.name]
    ∧ (F.type = .relation →
        ∃ target, F.definition.model = some target ∧ s.options.allows target = true)

variable {s : Schema}

/-! ## Declarations of a consistent registry -/

theorem sound_of_declares {model : String} {f : FieldDef} (h : s.registry.Declares model f) :
    f.Sound s.registry := by
  obtain ⟨m, hm, hf⟩ := h
  exact (Registry.problem?_eq_none_iff.mp s.consistent model m hm).1 f hf

/-- A model has one field of a name. -/
theorem declares_unique {model : String} {f g : FieldDef} (hf : s.registry.Declares model f)
    (hg : s.registry.Declares model g) (h : f.name = g.name) : f = g := by
  obtain ⟨m, hm, hf⟩ := hf
  obtain ⟨m', hm', hg⟩ := hg
  obtain rfl : m = m' := Option.some.inj (hm.symm.trans hm')
  have hnodup := (Registry.problem?_eq_none_iff.mp s.consistent model m hm).2
  exact List.inj_on_of_nodup_map hnodup hf hg h

/-- Only a relation names a model. -/
theorem relation_of_model {model target : String} {f : FieldDef} (h : s.registry.Declares model f)
    (hm : f.model = some target) : f.type = .relation := by
  by_contra ht
  have hnone := ((sound_of_declares h).plain ht).1
  exact absurd (hm.symm.trans hnone) (by simp)

theorem shows_eq_true_iff {f : FieldDef} :
    s.shows f = true
      ↔ (f.type = .relation →
        ∃ target, f.model = some target ∧ s.options.allows target = true) := by
  unfold shows
  cases f.model <;> simp [or_iff_not_imp_left]

/-! ## The walk -/

theorem mem_shown_iff {model : String} {f : FieldDef} :
    f ∈ s.shown model ↔ s.registry.Declares model f ∧ s.shows f = true := by
  unfold shown Registry.Declares
  cases s.registry.model? model <;> simp

/-- **A walk collects what its relations lead to.** The induction is on the relations
that may still be taken. -/
theorem mem_walkFrom_iff {hops : Nat} {model : String} {before : List String} {F : Field} :
    F ∈ s.walkFrom hops model before
      ↔ ∃ names, s.Leads model names F.model ∧ names.length ≤ hops
        ∧ s.registry.Declares F.model F.definition
        ∧ F.path = before ++ names ++ [F.definition.name] ∧ s.shows F.definition = true := by
  induction hops generalizing model before with
  | zero =>
    unfold walkFrom
    rw [List.mem_map]
    constructor
    · rintro ⟨f, hf, rfl⟩
      obtain ⟨hd, hs⟩ := mem_shown_iff.mp hf
      exact ⟨[], .here, Nat.le_refl 0, hd, by simp, hs⟩
    · rintro ⟨names, hl, hlen, hd, hpath, hs⟩
      obtain rfl := List.eq_nil_of_length_eq_zero (Nat.le_zero.mp hlen)
      cases hl
      rw [List.append_nil] at hpath
      exact ⟨F.definition, mem_shown_iff.mpr ⟨hd, hs⟩, by rw [← hpath]⟩
  | succ hops ih =>
    unfold walkFrom
    simp only [List.mem_flatMap, List.mem_cons, Option.mem_toList]
    constructor
    · rintro ⟨f, hf, rfl | ⟨target, hm, hF⟩⟩
      · obtain ⟨hd, hs⟩ := mem_shown_iff.mp hf
        exact ⟨[], .here, Nat.zero_le _, hd, by simp, hs⟩
      · -- a field behind `f`, which is a shown relation
        obtain ⟨hd, hs⟩ := mem_shown_iff.mp hf
        obtain ⟨names, hl, hlen, hd', hpath, hs'⟩ := ih.mp hF
        have ht : f.type = .relation := relation_of_model hd hm
        obtain ⟨target', hm', ha⟩ := shows_eq_true_iff.mp hs ht
        obtain rfl : target = target' := Option.some.inj (hm.symm.trans hm')
        refine ⟨f.name :: names, .follow hd ht hm ha hl, Nat.succ_le_succ hlen, hd', ?_, hs'⟩
        rw [hpath, List.append_assoc before]
        rfl
    · rintro ⟨names, hl, hlen, hd, hpath, hs⟩
      cases hl with
      | here =>
        rw [List.append_nil] at hpath
        exact ⟨F.definition, mem_shown_iff.mpr ⟨hd, hs⟩, Or.inl (by rw [← hpath])⟩
      | follow hd' ht hm ha hl =>
        refine ⟨_, mem_shown_iff.mpr ⟨hd', shows_eq_true_iff.mpr fun _ => ⟨_, hm, ha⟩⟩,
          Or.inr ⟨_, hm, ih.mpr ⟨_, hl, Nat.le_of_succ_le_succ hlen, hd, ?_, hs⟩⟩⟩
        rw [hpath, List.append_assoc before [_]]
        rfl

/-- **The walk collects the fields that the schema reaches.** -/
theorem mem_walk_iff {F : Field} : F ∈ s.walk ↔ s.Reaches F := by
  unfold walk Reaches
  rw [mem_walkFrom_iff]
  simp only [List.nil_append, shows_eq_true_iff]
  rfl

/-- **The listed fields are the reached ones.** -/
theorem mem_fields_iff {F : Field} : F ∈ s.fields ↔ s.Reaches F := by
  unfold fields
  rw [List.mem_mergeSort, mem_walk_iff]

/-! ## What a path determines -/

/-- Relations of the same names lead to the same model. -/
theorem Leads.unique {model last last' : String} {names : List String}
    (h : s.Leads model names last) (h' : s.Leads model names last') : last = last' := by
  generalize hnames : names = names' at h'
  induction h generalizing names' with
  | here =>
    subst hnames
    cases h'
    rfl
  | follow hf ht hm ha h ih =>
    cases h' with
    | here => exact nomatch hnames
    | follow hf' ht' hm' ha' h' =>
      obtain ⟨hname, hrest⟩ := List.cons.inj hnames
      obtain rfl := declares_unique hf hf' hname
      obtain rfl := Option.some.inj (hm.symm.trans hm')
      exact ih _ hrest h'

/-- **The last relation of a path** can be split off. -/
theorem leads_append_singleton {model last name : String} {names : List String} :
    s.Leads model (names ++ [name]) last
      ↔ ∃ mid f, s.Leads model names mid ∧ s.registry.Declares mid f ∧ f.name = name
        ∧ f.type = .relation ∧ f.model = some last ∧ s.options.allows last = true := by
  constructor
  · intro h
    induction names generalizing model with
    | nil =>
      obtain _ | ⟨hf, ht, hm, ha, h⟩ := h
      cases h
      exact ⟨model, _, .here, hf, rfl, ht, hm, ha⟩
    | cons n names ih =>
      obtain _ | ⟨hf, ht, hm, ha, h⟩ := h
      obtain ⟨mid, g, hl, hg⟩ := ih h
      exact ⟨mid, g, .follow hf ht hm ha hl, hg⟩
  · rintro ⟨mid, f, hl, hf, rfl, ht, hm, ha⟩
    induction hl with
    | here => exact .follow hf ht hm ha .here
    | follow hf' ht' hm' ha' _ ih => exact .follow hf' ht' hm' ha' (ih hf)

/-- A shown field of a model that relations lead to is reached behind their names. -/
theorem Leads.reaches {before : List String} {model : String} {f : FieldDef}
    (hl : s.Leads s.root before model) (hdepth : before.length ≤ s.options.maxDepth)
    (hf : s.registry.Declares model f)
    (hshown :
      f.type = .relation → ∃ target, f.model = some target ∧ s.options.allows target = true) :
    s.Reaches ⟨before ++ [f.name], model, f⟩ :=
  ⟨before, hl, hdepth, hf, rfl, hshown⟩

/-- One relation more leads to its model. -/
theorem Leads.behind {before : List String} {model target : String} {f : FieldDef}
    (hl : s.Leads s.root before model) (hf : s.registry.Declares model f) (ht : f.type = .relation)
    (hm : f.model = some target) (ha : s.options.allows target = true) :
    s.Leads s.root (before ++ [f.name]) target :=
  leads_append_singleton.mpr ⟨model, f, hl, hf, rfl, ht, hm, ha⟩

/-- What holds of every declared name holds of the names of relations. -/
theorem Leads.forall_mem {P : String → Prop}
    (hP : ∀ {model : String} {f : FieldDef}, s.registry.Declares model f → P f.name)
    {model last : String} {names : List String} (h : s.Leads model names last) :
    ∀ n ∈ names, P n := by
  induction h with
  | here => exact fun n hn => nomatch hn
  | follow hf _ _ _ _ ih => exact List.forall_mem_cons.mpr ⟨hP hf, ih⟩

/-- The names of relations have no points. -/
theorem Leads.no_point {model last : String} {names : List String} (h : s.Leads model names last) :
    ∀ n ∈ names, '.' ∉ n.toList :=
  h.forall_mem fun hf => (sound_of_declares hf).no_point

namespace Reaches

variable {F G : Field}

theorem path_ne_nil (h : s.Reaches F) : F.path ≠ [] := by
  obtain ⟨before, -, -, -, hpath, -⟩ := h
  rw [hpath]
  exact List.append_ne_nil_of_right_ne_nil before (List.cons_ne_nil _ _)

/-- What holds of every declared name holds of the names of a reached path. -/
theorem forall_mem {P : String → Prop}
    (hP : ∀ {model : String} {f : FieldDef}, s.registry.Declares model f → P f.name)
    (h : s.Reaches F) :
    ∀ n ∈ F.path, P n := by
  obtain ⟨before, hl, -, hd, hpath, -⟩ := h
  rw [hpath]
  exact List.forall_mem_append.mpr ⟨hl.forall_mem hP, List.forall_mem_singleton.mpr (hP hd)⟩

/-- The names of a reached path have no points. -/
theorem no_point (h : s.Reaches F) : ∀ n ∈ F.path, '.' ∉ n.toList :=
  h.forall_mem fun hf => (sound_of_declares hf).no_point

/-- **A text is cut into the path of the reached field** that it writes. -/
theorem splitPoints_dotted (h : s.Reaches F) : splitPoints F.dotted = F.path :=
  RecordQuery.splitPoints_dotted h.path_ne_nil h.no_point

/-- **A path determines the field** that it reaches. -/
theorem eq_of_path (hF : s.Reaches F) (hG : s.Reaches G) (h : F.path = G.path) : F = G := by
  obtain ⟨before, hl, -, hd, hpath, -⟩ := hF
  obtain ⟨before', hl', -, hd', hpath', -⟩ := hG
  have hsplit : before ++ [F.definition.name] = before' ++ [G.definition.name] := by
    rw [← hpath, h, hpath']
  obtain ⟨rfl, hname⟩ := List.append_inj' hsplit rfl
  have hmodel : F.model = G.model := hl.unique hl'
  have hdefinition : F.definition = G.definition :=
    declares_unique hd (hmodel ▸ hd') (List.cons.inj hname).1
  obtain ⟨path, model, definition⟩ := F
  exact Field.mk.injEq .. ▸ ⟨h, hmodel, hdefinition⟩

/-- **A text determines the field** that it reaches. -/
theorem eq_of_dotted (hF : s.Reaches F) (hG : s.Reaches G) (h : F.dotted = G.dotted) : F = G :=
  hF.eq_of_path hG (dotted_injective hF.path_ne_nil hG.path_ne_nil hF.no_point hG.no_point h)

end Reaches

/-- **The field of a text** is the reached field with it. -/
theorem find?_eq_some_iff {key : String} {F : Field} :
    s.find? key = some F ↔ s.Reaches F ∧ F.dotted = key := by
  unfold find?
  constructor
  · intro h
    refine ⟨mem_walk_iff.mp (List.mem_of_find?_eq_some h), ?_⟩
    simpa using List.find?_some h
  · rintro ⟨hF, rfl⟩
    cases hfind : s.walk.find? (·.dotted = F.dotted) with
    | none =>
      exact absurd (decide_eq_true rfl) (List.find?_eq_none.mp hfind F (mem_walk_iff.mpr hF))
    | some G =>
      have hG : s.Reaches G := mem_walk_iff.mp (List.mem_of_find?_eq_some hfind)
      have hdotted : G.dotted = F.dotted := by simpa using List.find?_some hfind
      rw [hG.eq_of_dotted hF hdotted]

/-! ## The list of fields -/

/-- The shown fields of a model have different names. -/
theorem pairwise_shown (model : String) : (s.shown model).Pairwise fun f g => f.name ≠ g.name := by
  unfold shown
  cases hm : s.registry.model? model with
  | none => exact List.Pairwise.nil
  | some m =>
    have hnodup := (Registry.problem?_eq_none_iff.mp s.consistent model m hm).2
    exact (List.pairwise_map.mp hnodup).filter s.shows

/-- What a walk collects has the path that led to its model, and more. -/
theorem path_of_mem_walkFrom {hops : Nat} {model : String} {before : List String} {F : Field}
    (h : F ∈ s.walkFrom hops model before) : ∃ n rest, F.path = before ++ n :: rest := by
  obtain ⟨names, -, -, -, hpath, -⟩ := mem_walkFrom_iff.mp h
  rw [List.append_assoc] at hpath
  cases names with
  | nil => exact ⟨_, _, hpath⟩
  | cons n names => exact ⟨_, _, hpath⟩

/-- The fields that a walk collects behind a field. -/
def fieldsBehind (s : Schema) (hops : Nat) (before : List String) (f : FieldDef) : List Field :=
  f.model.toList.flatMap fun target => s.walkFrom hops target (before ++ [f.name])

/-- The paths behind a field are longer than its own. -/
theorem path_of_mem_fieldsBehind {hops : Nat} {before : List String} {f : FieldDef} {F : Field}
    (h : F ∈ s.fieldsBehind hops before f) : ∃ n rest, F.path = before ++ f.name :: n :: rest := by
  obtain ⟨target, -, hF⟩ := List.mem_flatMap.mp h
  obtain ⟨n, rest, hpath⟩ := path_of_mem_walkFrom hF
  exact ⟨n, rest, by rw [hpath, List.append_assoc]; rfl⟩

/-- **A walk collects no path twice.** The paths behind two fields of a model differ in the names
of these fields, and the paths behind a relation are longer than its own. -/
theorem pairwise_walkFrom (hops : Nat) (model : String) (before : List String) :
    (s.walkFrom hops model before).Pairwise fun F G => F.path ≠ G.path := by
  induction hops generalizing model before with
  | zero =>
    unfold walkFrom
    rw [List.pairwise_map]
    refine (pairwise_shown model).imp fun hname hpath => hname ?_
    exact (List.cons.inj (List.append_cancel_left hpath)).1
  | succ hops ih =>
    show ((s.shown model).flatMap fun f =>
      ⟨before ++ [f.name], model, f⟩ :: s.fieldsBehind hops before f).Pairwise _
    rw [List.pairwise_flatMap]
    constructor
    · intro f _
      refine List.pairwise_cons.mpr ⟨fun F hF hpath => ?_, ?_⟩
      · obtain ⟨n, rest, hlong⟩ := path_of_mem_fieldsBehind hF
        have hnil : [f.name] = f.name :: n :: rest := List.append_cancel_left (hpath.trans hlong)
        exact nomatch (List.cons.inj hnil).2
      · unfold fieldsBehind
        cases f.model with
        | none => exact List.Pairwise.nil
        | some target =>
          rw [Option.toList_some, List.flatMap_singleton]
          exact ih target (before ++ [f.name])
    · refine (pairwise_shown model).imp fun {f g} hname F hF G hG hpath => hname ?_
      -- both paths go on with the name of the field that they are behind
      have hgoes : ∀ {f : FieldDef} {F : Field},
          F ∈ (⟨before ++ [f.name], model, f⟩ : Field) :: s.fieldsBehind hops before f →
          ∃ rest, F.path = before ++ f.name :: rest := by
        intro f F hF
        rcases List.mem_cons.mp hF with rfl | hF
        · exact ⟨[], rfl⟩
        · obtain ⟨n, rest, hlong⟩ := path_of_mem_fieldsBehind hF
          exact ⟨n :: rest, hlong⟩
      obtain ⟨rest, hf⟩ := hgoes hF
      obtain ⟨rest', hg⟩ := hgoes hG
      rw [hf, hg] at hpath
      exact (List.cons.inj (List.append_cancel_left hpath)).1

/-- **Fields are listed by increasing text**, so no two of them share one. -/
theorem pairwise_fields (s : Schema) : s.fields.Pairwise fun F G => F.dotted < G.dotted := by
  have hsorted : s.fields.Pairwise fun F G => F.dotted ≤ G.dotted := by
    unfold fields
    refine (List.pairwise_mergeSort ?_ ?_ s.walk).imp of_decide_eq_true
    · exact fun F G H h h' => decide_eq_true
        (String.le_trans (of_decide_eq_true h) (of_decide_eq_true h'))
    · intro F G
      rw [Bool.or_eq_true, decide_eq_true_iff, decide_eq_true_iff]
      exact String.le_total F.dotted G.dotted
  have hdistinct : s.fields.Pairwise fun F G => F.path ≠ G.path := by
    unfold fields
    exact (List.Perm.pairwise_iff Ne.symm (List.mergeSort_perm s.walk _)).mpr
      (pairwise_walkFrom s.options.maxDepth s.root [])
  refine (hsorted.and hdistinct).imp_of_mem fun {F G} hF hG h => ?_
  have hne : F.dotted ≠ G.dotted := fun heq =>
    h.2 (congrArg Field.path ((mem_fields_iff.mp hF).eq_of_dotted (mem_fields_iff.mp hG) heq))
  exact Std.lt_of_le_of_ne h.1 hne

end Schema
end RecordQuery
