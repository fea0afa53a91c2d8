import RecordQuery.Proofs.Schema.Resolution

/-!
# Why a path does not resolve

A path is looked up among the fields of the schema as a whole. Only when it is not found, it is
walked from the root, segment by segment, to say what is wrong with it. Looking up and walking
know nothing of each other, and each has its own test for the relations that a path may take.

They agree. A path that is no field has a first segment with which something is wrong
(`FailsWith`): the relations before it lead to a model, and there the segment names no field, or
names a field with values but is not the last one, or a relation to a hidden model, or one
relation too many. `Schema.resolve` reports just that (`resolve_unknown_path`), and so it never
has to say that a path is unknown for no reason at all.
-/

namespace RecordQuery.Schema

/-- **What is wrong with a segment of a path**, on the model that the relations `before` lead to;
the segments `rest` come behind it. -/
inductive FailsAt (s : Schema) (before : List String) (model segment : String)
    (rest : List String) :
    SchemaError.Cause → Prop
  | unknown {m : Model} (hm : s.registry.model? model = some m)
      (hnone : ∀ f ∈ m.fields, f.name ≠ segment) :
      FailsAt s before model segment rest
        (.unknownField segment model (Text.closest? segment (m.fields.map (·.name))))
  | value {f : FieldDef} {next : String} {more : List String} (hf : s.registry.Declares model f)
      (hname : f.name = segment) (ht : f.type ≠ .relation) (hrest : rest = next :: more) :
      FailsAt s before model segment rest (.notRelation (dotted (before ++ [segment])) next)
  | hidden {f : FieldDef} {target : String} (hf : s.registry.Declares model f)
      (hname : f.name = segment)
      (ht : f.type = .relation) (hm : f.model = some target)
      (ha : s.options.allows target = false) :
      FailsAt s before model segment rest (.hidden (dotted (before ++ [segment])) target)
  | far {f : FieldDef} {target : String} (hf : s.registry.Declares model f)
      (hname : f.name = segment)
      (ht : f.type = .relation) (hm : f.model = some target) (ha : s.options.allows target = true)
      (hrest : rest ≠ []) (hdepth : s.options.maxDepth ≤ before.length) :
      FailsAt s before model segment rest
        (.tooFar (dotted (before ++ segment :: rest)) s.options.maxDepth)

/-- **Why the walk along a path fails**: nothing is wrong with the segments before some
segment, which are at most `maxDepth` relations that the options allow, and the cause
is wrong with that one. -/
def FailsWith (s : Schema) (path : List String) (cause : SchemaError.Cause) : Prop :=
  ∃ before model segment rest, path = before ++ segment :: rest ∧ s.Leads s.root before model
    ∧ before.length ≤ s.options.maxDepth ∧ s.FailsAt before model segment rest cause

variable {s : Schema}

/-! ## The models on the way -/

/-- The field of a name on a model is the one that the model declares. -/
theorem field?_eq_some_iff {model name : String} {m : Model} {f : FieldDef}
    (hm : s.registry.model? model = some m) :
    m.field? name = some f ↔ s.registry.Declares model f ∧ f.name = name := by
  unfold Model.field?
  constructor
  · intro h
    exact ⟨⟨m, hm, List.mem_of_find?_eq_some h⟩, by simpa using List.find?_some h⟩
  · rintro ⟨hf, rfl⟩
    have hmem : f ∈ m.fields := by
      obtain ⟨m', hm', hmem⟩ := hf
      exact Option.some.inj (hm'.symm.trans hm) ▸ hmem
    cases hfind : m.fields.find? (·.name = f.name) with
    | none => exact absurd (decide_eq_true rfl) (List.find?_eq_none.mp hfind f hmem)
    | some g =>
      have hname : g.name = f.name := by simpa using List.find?_some hfind
      exact congrArg some (declares_unique ⟨m, hm, List.mem_of_find?_eq_some hfind⟩ hf hname)

/-- Relations lead from a model of the registry to a model of the registry. -/
theorem Leads.exists_model {model last : String} {names : List String}
    (h : s.Leads model names last) (hmodel : ∃ m, s.registry.model? model = some m) :
    ∃ m, s.registry.model? last = some m := by
  induction h with
  | here => exact hmodel
  | follow hf ht hm _ _ ih =>
    obtain ⟨target, m, hm', htarget, -⟩ := (sound_of_declares hf).leads ht
    obtain rfl := Option.some.inj (hm.symm.trans hm')
    exact ih ⟨m, htarget⟩

/-! ## The walk -/

/-- **What the walk does at a declared field**: it stops at a field with values, at a relation to
a hidden model and at one relation too many, and goes on behind any other relation. -/
theorem explainFrom_declared {model : String} {before rest : List String} {f : FieldDef}
    (hf : s.registry.Declares model f) : s.explainFrom model before (f.name :: rest) =
      match f.model, rest with
      | none, [] => .unresolved (dotted (before ++ [f.name]))
      | none, next :: _ => .notRelation (dotted (before ++ [f.name])) next
      | some target, rest =>
        if s.options.allows target = false then .hidden (dotted (before ++ [f.name])) target
        else if rest ≠ [] ∧ s.options.maxDepth ≤ before.length then
          .tooFar (dotted (before ++ f.name :: rest)) s.options.maxDepth
        else s.explainFrom target (before ++ [f.name]) rest := by
  obtain ⟨m, hmodel, -⟩ := id hf
  have hfield : m.field? f.name = some f := (field?_eq_some_iff hmodel).mpr ⟨hf, rfl⟩
  rw [explainFrom, hmodel]
  simp only [hfield, Bool.not_eq_true']
  cases f.model <;> cases rest <;> rfl

/-- The walk follows relations within `maxDepth`. -/
theorem explainFrom_of_leads {model last : String} {before names rest : List String}
    (h : s.Leads model names last) (hdepth : before.length + names.length ≤ s.options.maxDepth) :
    s.explainFrom model before (names ++ rest) = s.explainFrom last (before ++ names) rest := by
  induction h generalizing before with
  | here => rw [List.append_nil, List.nil_append]
  | @follow model target last f names hf _ hm ha _ ih =>
    rw [List.length_cons] at hdepth
    have hnear : ¬ (names ++ rest ≠ [] ∧ s.options.maxDepth ≤ before.length) := fun h => by omega
    have hdepth' : (before ++ [f.name]).length + names.length ≤ s.options.maxDepth := by
      rw [List.length_append, List.length_singleton]
      omega
    rw [List.cons_append, explainFrom_declared hf, hm]
    simp only [ha, Bool.true_eq_false, if_false, if_neg hnear]
    rw [ih hdepth', List.append_assoc]
    rfl

/-- **The walk reports what is wrong with a segment.** -/
theorem FailsAt.explainFrom_eq {before rest : List String} {model segment : String}
    {cause : SchemaError.Cause} (h : s.FailsAt before model segment rest cause) :
    s.explainFrom model before (segment :: rest) = cause := by
  cases h with
  | @unknown m hm hnone =>
    have hfield : m.field? segment = none :=
      List.find?_eq_none.mpr fun f hf => by simpa using hnone f hf
    rw [explainFrom, hm]
    simp only [hfield]
  | @value f next more hf hname ht hrest =>
    subst hname hrest
    have hnone : f.model = none := ((sound_of_declares hf).plain ht).1
    rw [explainFrom_declared hf, hnone]
  | @hidden f target hf hname ht hm ha =>
    subst hname
    rw [explainFrom_declared hf, hm]
    simp only [ha, if_true]
  | @far f target hf hname ht hm ha hrest hdepth =>
    subst hname
    rw [explainFrom_declared hf, hm]
    simp only [ha, Bool.true_eq_false, if_false]
    rw [if_pos ⟨hrest, hdepth⟩]

/-- **A path fails for one reason**, and this is the one that the walk finds. -/
theorem FailsWith.explain_eq {path : List String} {cause : SchemaError.Cause}
    (h : s.FailsWith path cause) :
    s.explain path = cause := by
  obtain ⟨before, model, segment, rest, rfl, hl, hdepth, hfails⟩ := h
  have hwalk : s.explainFrom s.root [] (before ++ segment :: rest)
      = s.explainFrom model before (segment :: rest) :=
    explainFrom_of_leads hl (by rwa [List.length_nil, Nat.zero_add])
  exact hwalk.trans hfails.explainFrom_eq

/-! ## A path that is no field -/

/-- **A path fails or is a field of the schema.** The induction is on the segments that are left,
behind the relations that led to the model at hand. -/
theorem exists_failsWith_or_reaches {before rest : List String} {model : String}
    (hl : s.Leads s.root before model) (hdepth : before.length ≤ s.options.maxDepth)
    (hrest : rest ≠ []) :
    (∃ cause, s.FailsWith (before ++ rest) cause)
      ∨ ∃ F, s.Reaches F ∧ F.path = before ++ rest := by
  induction rest generalizing before model with
  | nil => exact absurd rfl hrest
  | cons segment rest ih =>
    obtain ⟨m, hmodel⟩ := hl.exists_model (Option.isSome_iff_exists.mp s.rooted)
    have hfails : ∀ {cause}, s.FailsAt before model segment rest cause →
        ∃ cause, s.FailsWith (before ++ segment :: rest) cause :=
      fun h => ⟨_, before, model, segment, rest, rfl, hl, hdepth, h⟩
    by_cases hdeclared : ∃ f ∈ m.fields, f.name = segment
    · obtain ⟨f, hmem, rfl⟩ := hdeclared
      have hf : s.registry.Declares model f := ⟨m, hmodel, hmem⟩
      by_cases ht : f.type = .relation
      · obtain ⟨target, -, hm, -, -⟩ := (sound_of_declares hf).leads ht
        cases ha : s.options.allows target with
        | false => exact Or.inl (hfails (.hidden hf rfl ht hm ha))
        | true =>
          by_cases hlast : rest = []
          · subst hlast
            exact Or.inr ⟨_, hl.reaches hdepth hf fun _ => ⟨target, hm, ha⟩, rfl⟩
          · by_cases hfar : s.options.maxDepth ≤ before.length
            · exact Or.inl (hfails (.far hf rfl ht hm ha hlast hfar))
            · have hnext := ih (hl.behind hf ht hm ha) (by simp; omega) hlast
              rwa [List.append_assoc] at hnext
      · cases rest with
        | nil => exact Or.inr ⟨_, hl.reaches hdepth hf fun hr => absurd hr ht, rfl⟩
        | cons next more => exact Or.inl (hfails (.value hf rfl ht rfl))
    · exact Or.inl (hfails (.unknown hmodel fun f hf hname => hdeclared ⟨f, hf, hname⟩))

/-- A text is no field if no listed field has it. -/
theorem find?_eq_none_iff {key : String} : s.find? key = none ↔ ∀ F ∈ s.fields, F.dotted ≠ key := by
  rw [Option.eq_none_iff_forall_ne_some]
  simp only [ne_eq, find?_eq_some_iff, not_and, mem_fields_iff]

/-- A path that is no field fails with what the walk finds. -/
theorem failsWith_explain {path : List String} (hne : path ≠ [])
    (hfind : s.find? (dotted path) = none) :
    s.FailsWith path (s.explain path) := by
  rcases exists_failsWith_or_reaches .here (Nat.zero_le _) hne with ⟨cause, hcause⟩ | ⟨F, hF, hpath⟩
  · exact hcause.explain_eq.symm ▸ hcause
  · have hfound : s.find? (dotted path) = some F :=
      find?_eq_some_iff.mpr ⟨hF, congrArg dotted hpath⟩
    exact absurd (hfind.symm.trans hfound) (by simp)

/-- **When a path is refused, and with what**: it has no segments, it is no field, or it is a
relation whose default field lies too far or which has none. -/
inductive Refuses (s : Schema) (path : List String) : SchemaError → Prop
  | empty (hpath : path = []) : Refuses s path (.plain .emptyPath)
  | unknown (hpath : path ≠ []) (hfind : s.find? (dotted path) = none) :
      Refuses s path (.about (dotted path) (s.explain path))
  | far {G : Field} {name : String} (hpath : path ≠ []) (hfind : s.find? (dotted path) = some G)
      (ht : G.type = .relation) (hdefault : G.definition.defaultField = some name)
      (hfar : s.find? (dotted path ++ "." ++ name) = none) :
      Refuses s path (.about (dotted path) (.tooFar (dotted path) s.options.maxDepth))
  | bare {G : Field} (hpath : path ≠ []) (hfind : s.find? (dotted path) = some G)
      (ht : G.type = .relation)
      (hdefault : G.definition.defaultField = none) :
      Refuses s path (.about (dotted path) (.bareRelation (dotted path) (G.definition.model.getD "")
        (dotted path ++ "." ++ s.exampleField (G.definition.model.getD ""))))

theorem Refuses.resolve_eq {path : List String} {e : SchemaError} (h : s.Refuses path e) :
    s.resolve path = .error e := by
  unfold resolve
  cases h with
  | empty hpath => rw [if_pos hpath]
  | unknown hpath hfind =>
    rw [if_neg hpath]
    simp only [hfind]
  | far hpath hfind ht hdefault hfar =>
    rw [if_neg hpath]
    simp only [hfind, Field.isRelation, ht, decide_true, if_true, defaultOf, hdefault, hfar]
  | bare hpath hfind ht hdefault =>
    rw [if_neg hpath]
    simp only [hfind, Field.isRelation, ht, decide_true, if_true, defaultOf, hdefault]

/-- **A path that does not resolve is refused.** -/
theorem exists_refuses {path : List String} (h : ∀ F, s.resolve path ≠ .ok F) :
    ∃ e, s.Refuses path e := by
  by_cases hpath : path = []
  · exact ⟨_, .empty hpath⟩
  cases hfind : s.find? (dotted path) with
  | none => exact ⟨_, .unknown hpath hfind⟩
  | some G =>
    by_cases ht : G.type = .relation
    · cases hdefault : G.definition.defaultField with
      | none => exact ⟨_, .bare hpath hfind ht hdefault⟩
      | some name =>
        cases hfar : s.find? (dotted path ++ "." ++ name) with
        | none => exact ⟨_, .far hpath hfind ht hdefault hfar⟩
        | some F =>
          exact absurd
            ((resolve_eq_ok_iff_find? hpath).mpr ⟨G, hfind, Or.inr ⟨ht, name, hdefault, hfar⟩⟩)
            (h F)
    · exact absurd ((resolve_eq_ok_iff_find? hpath).mpr ⟨G, hfind, Or.inl ⟨ht, rfl⟩⟩) (h G)

/-- **The error is the one with which the path is refused.** -/
theorem resolve_eq_error_iff {path : List String} {e : SchemaError} :
    s.resolve path = .error e ↔ s.Refuses path e := by
  constructor
  · intro h
    obtain ⟨e', he'⟩ : ∃ e', s.Refuses path e' :=
      exists_refuses fun F hF => by cases h.symm.trans hF
    exact Except.error.inj (he'.resolve_eq.symm.trans h) ▸ he'
  · exact Refuses.resolve_eq

/-- **A path that is no field is refused for what is wrong with its first wrong segment.** The
error names the path, and its cause is the only one for which the walk along the path fails; it is
never that the path is unknown for no reason. -/
theorem resolve_unknown_path {path : List String} (hne : path ≠ [])
    (hunknown : ∀ F ∈ s.fields, F.dotted ≠ dotted path) :
    ∃ cause, s.resolve path = .error (.about (dotted path) cause)
      ∧ (∀ cause', s.FailsWith path cause' ↔ cause' = cause)
        ∧ ∀ text, cause ≠ .unresolved text := by
  have hfind : s.find? (dotted path) = none := find?_eq_none_iff.mpr hunknown
  have hcause : s.FailsWith path (s.explain path) := failsWith_explain hne hfind
  refine ⟨s.explain path, resolve_eq_error_iff.mpr (.unknown hne hfind), fun cause' => ?_, ?_⟩
  · exact ⟨fun h => h.explain_eq.symm, fun h => h ▸ hcause⟩
  · obtain ⟨before, model, segment, rest, -, -, -, hfails⟩ := hcause
    intro text htext
    rw [htext] at hfails
    cases hfails

/-- With one relation to take, the mentor of an author is a field, but the name of the mentor lies
one relation too far. -/
theorem resolve_unknown_path_mentor :
    let author := FieldDef.relation "author" "user"
    let mentor := FieldDef.relation "mentor" "user"
    let registry :=
      (Registry.empty.withModel "post" ⟨[author]⟩).withModel "user"
        ⟨[.plain "name" .text, mentor]⟩
    let path := ["author", "mentor", "name"]
    ∃ s : Schema, build registry "post" ⟨1, none, .empty⟩ = .ok s
      ∧ (∀ F ∈ s.fields, F.dotted ≠ dotted path)
      ∧ s.FailsWith path (.tooFar (dotted path) 1)
      ∧ s.resolve path = .error (.about (dotted path) (.tooFar (dotted path) 1)) := by
  intro author mentor registry path
  let s : Schema := ⟨registry, "post", ⟨1, none, .empty⟩, by decide +kernel, by decide +kernel⟩
  have hunknown : ∀ F ∈ s.fields, F.dotted ≠ dotted path := find?_eq_none_iff.mp (by decide +kernel)
  have hauthor : s.registry.Declares "post" author := ⟨⟨[author]⟩, by decide +kernel, by simp⟩
  have hmentor : s.registry.Declares "user" mentor :=
    ⟨⟨[.plain "name" .text, mentor]⟩, by decide +kernel, by simp⟩
  have hfails : s.FailsWith path (.tooFar (dotted path) 1) :=
    ⟨["author"], "user", "mentor", ["name"], rfl,
      .follow hauthor rfl rfl (by decide +kernel) .here,
      by decide, .far hmentor rfl rfl rfl (by decide +kernel) (by simp) (by decide)⟩
  obtain ⟨cause, hresolve, hcause, -⟩ := resolve_unknown_path (List.cons_ne_nil _ _) hunknown
  obtain rfl := (hcause _).mp hfails
  exact ⟨s, build_eq_ok_iff.mpr ⟨rfl, rfl, rfl⟩, hunknown, hfails, hresolve⟩

end RecordQuery.Schema
