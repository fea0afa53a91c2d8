import RecordQuery.Proofs.Schema.Resolution
import RecordQuery.Schema.Introspection

/-!
# Following the introspection document

An editor that completes field names knows the introspection document and not the registry.
It follows the document from the searched model: a name with a relation leads to the entries
of another model, and a name without one ends a path (`Introspection.Offers`). The paths
that are found in this way, as far as `maxDepth` reaches, are those that resolve to
themselves (`offers_iff_resolve`).

The document has one entry for a model and a name, although there may be many paths to the model,
and it is put together from all of them. That it says what each of them would say is due to the
registry: a model declares one field of a name (`describe_eq`), and whether a relation is shown
depends on the options and not on the path. Two things are cut off: relations that lead out of the
document, and models that lie too far. No path within `maxDepth` is lost by that, since the model
behind each of its relations declares the next name of the path and is in the document for it
(`mem_reached_of_leads`).
-/

namespace RecordQuery

/-! ## The entries of a document -/

/-- The description of a name in a model. -/
def entry? (models : NameMap (NameMap FieldDescription)) (model name : String) :
    Option FieldDescription :=
  (models.get? model).bind (·.get? name)

namespace Schema

variable {models : NameMap (NameMap FieldDescription)} {fs : List Field}

/-- **A field is put in for its model and its name**, and nothing else is changed. -/
theorem entry?_addField (F : Field) (model name : String) :
    entry? (addField models F) model name
      = if F.model = model ∧ F.name = name then some (describe F)
        else entry? models model name := by
  unfold entry? addField
  rw [NameMap.get?_insert]
  by_cases hm : model = F.model
  · subst hm
    rw [if_pos rfl, Option.bind_some, NameMap.get?_insert]
    by_cases hn : name = F.name
    · rw [if_pos hn, if_pos ⟨rfl, hn.symm⟩]
    · rw [if_neg hn, if_neg fun h => hn h.2.symm]
      cases models.get? F.model <;> rfl
  · rw [if_neg hm, if_neg fun h => hm h.1.symm]

/-- What no field stands for is not changed. -/
theorem entry?_foldl_of_forall_ne {model name : String}
    (h : ∀ F ∈ fs, ¬ (F.model = model ∧ F.name = name)) :
    entry? (fs.foldl addField models) model name = entry? models model name := by
  induction fs generalizing models with
  | nil => rfl
  | cons F fs ih =>
    obtain ⟨hF, hfs⟩ := List.forall_mem_cons.mp h
    rw [List.foldl_cons, ih hfs, entry?_addField, if_neg hF]

/-- **Every field is in the end described for its model and its name**, if fields that share
both are described alike. -/
theorem entry?_foldl_of_mem
    (hsame : ∀ F ∈ fs, ∀ G ∈ fs, F.model = G.model → F.name = G.name → describe F = describe G)
    {F : Field} (hF : F ∈ fs) :
    entry? (fs.foldl addField models) F.model F.name = some (describe F) := by
  induction fs generalizing models F with
  | nil => exact nomatch hF
  | cons G fs ih =>
    have hsame' : ∀ F ∈ fs, ∀ G ∈ fs, F.model = G.model → F.name = G.name →
        describe F = describe G :=
      fun F hF G hG => hsame F (List.mem_cons_of_mem _ hF) G (List.mem_cons_of_mem _ hG)
    rw [List.foldl_cons]
    -- the last field that shares the model and the name counts, and it need not be `F`
    by_cases hlater : ∃ H ∈ fs, H.model = F.model ∧ H.name = F.name
    · obtain ⟨H, hH, hmodel, hname⟩ := hlater
      rw [hsame F hF H (List.mem_cons_of_mem _ hH) hmodel.symm hname.symm, ← hmodel, ← hname]
      exact ih hsame' hH
    · have hnone : ∀ H ∈ fs, ¬ (H.model = F.model ∧ H.name = F.name) :=
        fun H hH h => hlater ⟨H, hH, h⟩
      rcases List.mem_cons.mp hF with rfl | hF
      · rw [entry?_foldl_of_forall_ne hnone, entry?_addField, if_pos ⟨rfl, rfl⟩]
      · exact absurd ⟨rfl, rfl⟩ (hnone F hF)

/-- Models stay in a document. -/
theorem isSome_get?_foldl {model : String} (h : (models.get? model).isSome = true) :
    ((fs.foldl addField models).get? model).isSome = true := by
  induction fs generalizing models with
  | nil => exact h
  | cons F fs ih =>
    refine ih ?_
    unfold addField
    rw [NameMap.get?_insert]
    split
    · rfl
    · exact h

/-! ## The document of a schema -/

variable {s : Schema} {F G : Field}

/-- The name of a reached field is the declared one. -/
theorem Reaches.name_eq (h : s.Reaches F) : F.name = F.definition.name := by
  obtain ⟨before, -, -, -, hpath, -⟩ := h
  unfold Field.name
  rw [hpath, List.getLastD_concat]

/-- **What is known of a field does not depend on the path to its model.** -/
theorem describe_eq (hF : s.Reaches F) (hG : s.Reaches G) (hmodel : F.model = G.model)
    (hname : F.name = G.name) : describe F = describe G := by
  rw [hF.name_eq, hG.name_eq] at hname
  obtain ⟨-, -, -, hd, -, -⟩ := hF
  obtain ⟨-, -, -, hd', -, -⟩ := hG
  have hdefinition : F.definition = G.definition := declares_unique hd (hmodel ▸ hd') hname
  unfold describe Field.type
  rw [hdefinition]

/-- A field with values is described by its type, whether it may be null, and its
values unless it has none. -/
theorem Reaches.describe_eq_of_value (h : s.Reaches F) (ht : F.type ≠ .relation) :
    describe F = ⟨F.type, F.definition.nullable,
      if F.definition.suggestions = [] then none else some F.definition.suggestions, none⟩ := by
  obtain ⟨-, -, -, hd, -, -⟩ := h
  unfold describe
  rw [((sound_of_declares hd).plain ht).1]
  simp only [List.isEmpty_iff]

theorem mem_reached_iff {model : String} :
    model ∈ s.reached ↔ model = s.root ∨ ∃ F, s.Reaches F ∧ F.model = model := by
  unfold reached
  simp only [List.mem_cons, List.mem_map, mem_fields_iff]

theorem lists_eq_true_iff :
    lists s.reached F = true ↔ ∀ target, F.definition.model = some target → target ∈ s.reached := by
  unfold lists
  cases F.definition.model with
  | none => simp
  | some target => simp

theorem mem_listed_iff :
    F ∈ s.fields.filter (lists s.reached)
      ↔ s.Reaches F ∧ ∀ target, F.definition.model = some target → target ∈ s.reached := by
  rw [List.mem_filter, mem_fields_iff, lists_eq_true_iff]

/-- **The document describes the reached fields**, but for the relations that lead out of it. -/
theorem entry?_introspection_iff {model name : String} {d : FieldDescription} :
    entry? s.introspection.models model name = some d
      ↔ ∃ F, s.Reaches F ∧ (∀ target, F.definition.model = some target → target ∈ s.reached)
        ∧ F.model = model ∧ F.definition.name = name ∧ describe F = d := by
  unfold introspection
  have hsame : ∀ F ∈ s.fields.filter (lists s.reached), ∀ G ∈ s.fields.filter (lists s.reached),
      F.model = G.model → F.name = G.name → describe F = describe G := fun F hF G hG =>
    describe_eq (mem_listed_iff.mp hF).1 (mem_listed_iff.mp hG).1
  constructor
  · intro h
    by_cases hsome : ∃ F ∈ s.fields.filter (lists s.reached), F.model = model ∧ F.name = name
    · obtain ⟨F, hF, rfl, rfl⟩ := hsome
      obtain ⟨hreach, hlisted⟩ := mem_listed_iff.mp hF
      refine ⟨F, hreach, hlisted, rfl, hreach.name_eq.symm, ?_⟩
      exact Option.some.inj ((entry?_foldl_of_mem hsame hF).symm.trans h)
    · have hnone : entry? (NameMap.ofList (s.reached.map (·, NameMap.empty))) model name
          = none := by
        unfold entry?
        rw [NameMap.get?_ofList_const]
        split <;> rfl
      rw [entry?_foldl_of_forall_ne fun F hF h => hsome ⟨F, hF, h⟩, hnone] at h
      exact nomatch h
  · rintro ⟨F, hreach, hlisted, rfl, rfl, rfl⟩
    rw [← hreach.name_eq]
    exact entry?_foldl_of_mem hsame (mem_listed_iff.mpr ⟨hreach, hlisted⟩)

/-- **The document has all models that the schema reaches.** -/
theorem isSome_introspection_of_mem {model : String} (h : model ∈ s.reached) :
    (s.introspection.models.get? model).isSome = true := by
  unfold introspection
  refine isSome_get?_foldl ?_
  rw [NameMap.get?_ofList_const, if_pos h]
  rfl

end Schema

/-! ## Following -/

/-- **What a document offers for the names of a path**, from a model on: the
description of the last name, where every name before it has a relation to the next
model and the last one has none. -/
inductive Introspection.Offers (D : Introspection) : String → List String → FieldDescription → Prop
  | value {model name : String} {d : FieldDescription} (hd : entry? D.models model name = some d)
      (hrelation : d.relation = none) : Offers D model [name] d
  | follow {model name target : String} {names : List String} {r d : FieldDescription}
      (hr : entry? D.models model name = some r) (hrelation : r.relation = some target)
      (h : Offers D target names d) : Offers D model (name :: names) d

namespace Schema

variable {s : Schema} {F : Field}

/-- **What the document offers is reached.** The induction is on the names that are left, behind
those that were followed to the model at hand. -/
theorem reaches_of_offers {before : List String} {model : String} {names : List String}
    {d : FieldDescription} (h : s.introspection.Offers model names d)
    (hl : s.Leads s.root before model)
    (hdepth : before.length + names.length ≤ s.options.maxDepth + 1) :
    ∃ F, s.Reaches F ∧ F.type ≠ .relation ∧ F.path = before ++ names ∧ describe F = d := by
  induction h generalizing before with
  | @value model name d hd hrelation =>
    obtain ⟨G, hG, -, rfl, rfl, rfl⟩ := entry?_introspection_iff.mp hd
    obtain ⟨-, -, -, hdeclares, -, -⟩ := hG
    have hvalues : G.type ≠ .relation := by
      intro ht
      obtain ⟨target, -, hm, -⟩ := (sound_of_declares hdeclares).leads ht
      exact absurd (hm.symm.trans hrelation) (by simp)
    exact ⟨_, hl.reaches (Nat.le_of_succ_le_succ hdepth) hdeclares fun ht => absurd ht hvalues,
      hvalues, rfl, rfl⟩
  | @follow model name target names r d hr hrelation _ ih =>
    obtain ⟨G, hG, -, rfl, rfl, rfl⟩ := entry?_introspection_iff.mp hr
    obtain ⟨-, -, -, hdeclares, -, hallows⟩ := hG
    have ht : G.definition.type = .relation := relation_of_model hdeclares hrelation
    obtain ⟨target', hm, ha⟩ := hallows ht
    obtain rfl : target' = target := Option.some.inj (hm.symm.trans hrelation)
    have hdepth' :
        (before ++ [G.definition.name]).length + names.length ≤ s.options.maxDepth + 1 := by
      simp only [List.length_append, List.length_cons, List.length_nil] at hdepth ⊢
      omega
    obtain ⟨F, hF, hvalues, hpath, hd⟩ := ih (hl.behind hdeclares ht hm ha) hdepth'
    exact ⟨F, hF, hvalues, hpath.trans (List.append_assoc ..), hd⟩

/-- **A model on the way to a field is in the document**, since it declares the next name. -/
theorem mem_reached_of_leads {before names : List String} {model last : String} {f : FieldDef}
    (hl : s.Leads s.root before model) (hdepth : before.length ≤ s.options.maxDepth)
    (h : s.Leads model names last) (hf : s.registry.Declares last f) (ht : f.type ≠ .relation) :
    model ∈ s.reached := by
  refine mem_reached_iff.mpr (Or.inr ?_)
  cases h with
  | here => exact ⟨_, hl.reaches hdepth hf fun hr => absurd hr ht, rfl⟩
  | follow hg _ hm ha _ => exact ⟨_, hl.reaches hdepth hg fun _ => ⟨_, hm, ha⟩, rfl⟩

/-- **What is reached is offered.** The induction is on the relations that are left, behind those
that led to the model at hand. -/
theorem offers_of_leads {before names : List String} {model last : String} {f : FieldDef}
    (hl : s.Leads s.root before model) (h : s.Leads model names last)
    (hdepth : before.length + names.length ≤ s.options.maxDepth) (hf : s.registry.Declares last f)
    (ht : f.type ≠ .relation) (path : List String) :
    s.introspection.Offers model (names ++ [f.name]) (describe ⟨path, last, f⟩) := by
  induction h generalizing before with
  | here =>
    have hm : f.model = none := ((sound_of_declares hf).plain ht).1
    have hlisted : ∀ target, f.model = some target → target ∈ s.reached := fun target htarget =>
      absurd (htarget.symm.trans hm) (by simp)
    have hreach := hl.reaches hdepth hf fun hr => absurd hr ht
    exact .value (entry?_introspection_iff.mpr ⟨_, hreach, hlisted, rfl, rfl, rfl⟩) hm
  | @follow _ target _ g names hg hr hm ha h ih =>
    have hl' := hl.behind hg hr hm ha
    have hdepth' : (before ++ [g.name]).length + names.length ≤ s.options.maxDepth := by
      simp only [List.length_append, List.length_cons, List.length_nil] at hdepth ⊢
      omega
    have hlisted : ∀ target', g.model = some target' → target' ∈ s.reached := by
      rintro target' hm'
      obtain rfl : target = target' := Option.some.inj (hm.symm.trans hm')
      exact mem_reached_of_leads hl' (Nat.le_trans (Nat.le_add_right _ _) hdepth') h hf ht
    have hreach :=
      hl.reaches (Nat.le_trans (Nat.le_add_right _ _) hdepth) hg fun _ => ⟨target, hm, ha⟩
    exact .follow (entry?_introspection_iff.mpr ⟨_, hreach, hlisted, rfl, rfl, rfl⟩) hm
      (ih hl' hdepth' hf)

/-- **The document and the resolver agree.** Within `maxDepth`, a path can be followed in the
document exactly if it resolves to the field at its own end, and the entry there gives the type of
the field, whether it may be null, and its values unless it has none. Nothing leads out of the
document: it has the searched model and the model of every relation. -/
theorem offers_iff_resolve (s : Schema) :
    (∀ path : List String, path.length - 1 ≤ s.options.maxDepth → ∀ d,
      s.introspection.Offers s.introspection.currentModel path d
        ↔ ∃ F, s.resolve path = .ok F ∧ F.path = path
          ∧ d = ⟨F.type, F.definition.nullable,
              if F.definition.suggestions = [] then none else some F.definition.suggestions,
              none⟩)
    ∧ (s.introspection.models.get? s.introspection.currentModel).isSome = true
    ∧ ∀ model name d target, entry? s.introspection.models model name = some d →
      d.relation = some target →
        (s.introspection.models.get? target).isSome = true := by
  refine ⟨fun path hdepth d => ⟨fun h => ?_, ?_⟩, ?_, ?_⟩
  · obtain ⟨F, hF, ht, rfl, rfl⟩ := reaches_of_offers h .here (by simpa using by omega)
    exact ⟨F, hF.resolve_path ht, rfl, hF.describe_eq_of_value ht⟩
  · rintro ⟨F, hresolve, rfl, rfl⟩
    have hF := reaches_of_resolve hresolve
    have ht := type_ne_relation_of_resolve hresolve
    rw [← hF.describe_eq_of_value ht]
    obtain ⟨names, hl, hlength, hd, hpath, -⟩ := hF
    rw [hpath]
    exact offers_of_leads .here hl (by simpa using hlength) hd ht F.path
  · exact isSome_introspection_of_mem List.mem_cons_self
  · intro model name d target hd hrelation
    obtain ⟨F, -, hlisted, -, -, rfl⟩ := entry?_introspection_iff.mp hd
    exact isSome_introspection_of_mem (hlisted target hrelation)

/-- The document of a post offers the rank of its author. It does not offer the author alone,
which resolves to the author's name. -/
theorem offers_author :
    let name := FieldDef.plain "name" .text
    let rank := { FieldDef.choice "rank" [⟨"1", some "first"⟩] with nullable := true }
    let author := { FieldDef.relation "author" "user" with defaultField := some "name" }
    let registry := (Registry.empty.withModel "post" ⟨[author]⟩).withModel "user"
      ⟨[name, rank, .relation "friend" "user"]⟩
    ∃ s : Schema, build registry "post" ⟨1, none, .empty⟩ = .ok s
      ∧ ["author", "rank"].length - 1 ≤ s.options.maxDepth
      ∧ s.introspection.Offers "post" ["author", "rank"]
          ⟨.choice, true, some [⟨"1", some "first"⟩], none⟩
      ∧ s.resolve ["author"] = .ok ⟨["author", "name"], "user", name⟩
      ∧ ∀ d, ¬ s.introspection.Offers "post" ["author"] d := by
  intro name rank author registry
  let s : Schema := ⟨registry, "post", ⟨1, none, .empty⟩, by decide +kernel, by decide +kernel⟩
  obtain ⟨hiff, -, -⟩ := offers_iff_resolve s
  have hdepth : ["author", "rank"].length - 1 ≤ s.options.maxDepth := by decide
  have hrank : s.resolve ["author", "rank"] = .ok ⟨["author", "rank"], "user", rank⟩ := by
    decide +kernel
  have hauthor : s.resolve ["author"] = .ok ⟨["author", "name"], "user", name⟩ := by decide +kernel
  refine ⟨s, build_eq_ok_iff.mpr ⟨rfl, rfl, rfl⟩, hdepth, ?_, hauthor, fun d h => ?_⟩
  · exact (hiff _ hdepth _).mpr ⟨_, hrank, rfl, rfl⟩
  · obtain ⟨F, hF, hpath, -⟩ := (hiff ["author"] (by decide) d).mp h
    obtain rfl := Except.ok.inj (hauthor.symm.trans hF)
    exact absurd hpath (by decide)

end Schema
end RecordQuery
