import RecordQuery.Proofs.Schema.Explanation

/-!
# What an error offers instead

Two errors about a path offer another one. A segment that names no field comes with the most
similar name that its model declares, and a relation without a default field with one of the
fields behind it. Both are picked from the declarations, and no option is looked at, so what is
offered need not be a path that resolves.

A similar name is always declared by the model at hand, and it is a field of the schema unless it
is a relation to a model that the options hide (`fields_of_sibling`). Behind a relation, a field
with values is offered if there is one, and where one more segment may follow such a field
resolves. Otherwise the first relation is offered, which resolves if it stands for a default field
itself, and a model without fields leaves nothing that could (`resolve_offers`).
-/

namespace RecordQuery

namespace Text

/-! ## The most similar name -/

/-- How far two names are from each other: the edit distance in lower case. -/
def distance (name other : String) : Nat :=
  editDistance (lowercase name.toList) (lowercase other.toList)

/-- **The nearer of two candidates** is one of them, and neither is nearer. -/
theorem nearer_spec (best : Option (String × Nat)) (next : String × Nat) :
    ∃ b, nearer best next = some b ∧ (b = next ∨ best = some b) ∧ b.2 ≤ next.2
      ∧ ∀ c, best = some c → b.2 ≤ c.2 := by
  unfold nearer
  cases best with
  | none => exact ⟨next, rfl, Or.inl rfl, Nat.le_refl _, fun c hc => by cases hc⟩
  | some c =>
    by_cases hnear : next.2 < c.2
    · refine ⟨next, if_pos hnear, Or.inl rfl, Nat.le_refl _, fun d hd => ?_⟩
      obtain rfl := Option.some.inj hd
      exact Nat.le_of_lt hnear
    · refine ⟨c, if_neg hnear, Or.inr rfl, Nat.le_of_not_lt hnear, fun d hd => ?_⟩
      obtain rfl := Option.some.inj hd
      exact Nat.le_refl _

/-- The nearest of some candidates, and of one that came before them. -/
theorem foldl_nearer_spec {scored : List (String × Nat)} {best : Option (String × Nat)}
    {b : String × Nat} (h : scored.foldl nearer best = some b) :
    (b ∈ scored ∨ best = some b) ∧ (∀ c ∈ scored, b.2 ≤ c.2) ∧ ∀ c, best = some c →
      b.2 ≤ c.2 := by
  induction scored generalizing best with
  | nil =>
    refine ⟨Or.inr h, fun c hc => absurd hc List.not_mem_nil, fun c hc => ?_⟩
    obtain rfl := Option.some.inj (h.symm.trans hc)
    exact Nat.le_refl _
  | cons next scored ih =>
    obtain ⟨d, hd, hfrom, hnext, hbest⟩ := nearer_spec best next
    rw [List.foldl_cons, hd] at h
    obtain ⟨hmem, hle, hled⟩ := ih h
    have hbd : b.2 ≤ d.2 := hled d rfl
    refine ⟨?_, List.forall_mem_cons.mpr ⟨Nat.le_trans hbd hnext, hle⟩,
      fun c hc => Nat.le_trans hbd (hbest c hc)⟩
    rcases hmem with hmem | hmem
    · exact Or.inl (List.mem_cons_of_mem next hmem)
    · obtain rfl := Option.some.inj hmem
      rcases hfrom with rfl | hfrom
      · exact Or.inl List.mem_cons_self
      · exact Or.inr hfrom

/-- **The name that is offered is a nearest known one**, near enough, and not the one that was
asked for. -/
theorem closest?_spec {name best : String} {known : List String}
    (h : closest? name known = some best) :
    best ∈ known ∧ best ≠ name ∧ distance name best ≤ similarityLimit
      ∧ ∀ k ∈ known, k ≠ "" → distance name best ≤ distance name k := by
  unfold closest? at h
  simp only at h
  split at h
  · exact nomatch h
  · rename_i found score hfold
    split at h
    · rename_i hnear
      obtain rfl := Option.some.inj h
      obtain ⟨hfrom, hle, -⟩ := foldl_nearer_spec hfold
      obtain ⟨k, hk, heq⟩ := List.mem_map.mp (hfrom.resolve_right (by simp))
      obtain ⟨rfl, rfl⟩ := Prod.mk.inj heq
      refine ⟨(List.mem_filter.mp hk).1, hnear.1, hnear.2, fun other hother hempty => ?_⟩
      exact hle _ (List.mem_map_of_mem (List.mem_filter.mpr ⟨hother, decide_eq_true hempty⟩))
    · exact nomatch h

end Text

namespace Schema

variable {s : Schema}

/-! ## Fields behind a model that is reached -/

/-- **A declared field is a field of the schema** behind the relations that lead to its model,
unless it is a relation to a hidden model. -/
theorem fields_of_sibling {before : List String} {model : String} {f : FieldDef}
    (hl : s.Leads s.root before model) (hdepth : before.length ≤ s.options.maxDepth)
    (hf : s.registry.Declares model f) :
    (∃ F ∈ s.fields, F.dotted = dotted (before ++ [f.name]))
      ↔ ∀ target, f.model = some target → s.options.allows target = true := by
  constructor
  · rintro ⟨F, hF, hdotted⟩ target hm
    have hreach : s.Reaches F := mem_fields_iff.mp hF
    have hpoint : ∀ n ∈ before ++ [f.name], '.' ∉ n.toList :=
      List.forall_mem_append.mpr ⟨hl.no_point,
        List.forall_mem_singleton.mpr (sound_of_declares hf).no_point⟩
    have hpath : F.path = before ++ [f.name] :=
      dotted_injective hreach.path_ne_nil (by simp) hreach.no_point hpoint hdotted
    obtain ⟨before', hl', -, hf', hpath', hallows⟩ := hreach
    obtain ⟨rfl, hname⟩ := List.append_inj' (hpath.symm.trans hpath') rfl
    obtain rfl : model = F.model := hl.unique hl'
    obtain rfl : f = F.definition := declares_unique hf hf' (List.cons.inj hname).1
    obtain ⟨target', hm', ha⟩ := hallows (relation_of_model hf hm)
    exact Option.some.inj (hm'.symm.trans hm) ▸ ha
  · intro hallows
    refine ⟨_, mem_fields_iff.mpr (hl.reaches hdepth hf fun ht => ?_), rfl⟩
    obtain ⟨target, -, hm, -⟩ := (sound_of_declares hf).leads ht
    exact ⟨target, hm, hallows target hm⟩

/-- **A path with one name more resolves** exactly if the name is that of a field with values, or
of a relation to a model that is not hidden which stands for a default field. -/
theorem exists_resolvesTo_iff {before : List String} {model name : String}
    (hl : s.Leads s.root before model) :
    (∃ F, s.ResolvesTo (before ++ [name]) F)
      ↔ ∃ f, s.registry.Declares model f ∧ f.name = name
        ∧ (f.type ≠ .relation ∧ before.length ≤ s.options.maxDepth
          ∨ f.type = .relation
            ∧ (∃ target, f.model = some target ∧ s.options.allows target = true)
            ∧ f.defaultField.isSome = true ∧ before.length + 1 ≤ s.options.maxDepth) := by
  constructor
  · rintro ⟨F, h⟩
    generalize hnames : before ++ [name] = names at h
    cases h with
    | value hl' hdepth hf ht =>
      obtain ⟨rfl, hname⟩ := List.append_inj' hnames rfl
      obtain rfl := hl.unique hl'
      exact ⟨_, hf, (List.cons.inj hname).1.symm, Or.inl ⟨ht, hdepth⟩⟩
    | default hl' hf ht hm ha hdefault hdepth hd =>
      obtain ⟨rfl, hname⟩ := List.append_inj' hnames rfl
      obtain rfl := hl.unique hl'
      exact ⟨_, hf, (List.cons.inj hname).1.symm,
        Or.inr ⟨ht, ⟨_, hm, ha⟩, Option.isSome_iff_exists.mpr ⟨_, hdefault⟩, hdepth⟩⟩
  · rintro ⟨f, hf, rfl, ⟨ht, hdepth⟩ | ⟨ht, ⟨target, hm, ha⟩, hdefault, hdepth⟩⟩
    · exact ⟨_, .value hl hdepth hf ht⟩
    · obtain ⟨name, hname⟩ := Option.isSome_iff_exists.mp hdefault
      obtain ⟨d, hd, rfl, -⟩ := declares_default hf hm hname
      exact ⟨_, .default hl hf ht hm ha hname hdepth hd⟩

/-! ## The field that is offered behind a relation -/

/-- **What is offered behind a relation**: a field with values if the model declares one, else a
relation if it declares any field, else a name that it does not declare. -/
theorem exampleField_spec {model : String} {m : Model} (hm : s.registry.model? model = some m) :
    (∃ d ∈ m.fields, d.type ≠ .relation ∧ s.exampleField model = d.name)
      ∨ (∀ d ∈ m.fields, d.type = .relation) ∧ (∃ d ∈ m.fields, s.exampleField model = d.name)
      ∨ m.fields = [] ∧ s.exampleField model = "id" := by
  unfold exampleField
  rw [hm]
  simp only
  cases hfind : m.fields.find? (·.type ≠ .relation) with
  | some d =>
    exact Or.inl ⟨d, List.mem_of_find?_eq_some hfind, by simpa using List.find?_some hfind, rfl⟩
  | none =>
    have hrelations : ∀ d ∈ m.fields, d.type = .relation := by
      simpa using List.find?_eq_none.mp hfind
    cases hfields : m.fields with
    | nil => exact Or.inr (Or.inr ⟨rfl, rfl⟩)
    | cons d ds => exact Or.inr (Or.inl ⟨hfields ▸ hrelations, d, List.mem_cons_self, rfl⟩)

/-- What is offered behind a relation has no point. -/
theorem exampleField_no_point {model : String} {m : Model} (hm : s.registry.model? model = some m) :
    '.' ∉ (s.exampleField model).toList := by
  rcases exampleField_spec hm with ⟨d, hd, -, hname⟩ | ⟨-, d, hd, hname⟩ | ⟨-, hname⟩
  · exact hname ▸ (sound_of_declares ⟨m, hm, hd⟩).no_point
  · exact hname ▸ (sound_of_declares ⟨m, hm, hd⟩).no_point
  · rw [hname]
    decide

/-! ## The two errors -/

/-- **An unknown segment is offered a sibling**: a name that is declared by the model to which the
segments before it lead, and to which no declared name is preferred. -/
theorem sibling_of_unknownField {path : List String} {e : SchemaError}
    {segment model name : String} (h : s.resolve path = .error e)
    (he : e.cause = .unknownField segment model (some name)) :
    ∃ before rest f, path = before ++ segment :: rest ∧ s.Leads s.root before model
      ∧ before.length ≤ s.options.maxDepth ∧ s.registry.Declares model f ∧ f.name = name
      ∧ ∀ g, s.registry.Declares model g →
        Text.distance segment name ≤ Text.distance segment g.name := by
  cases resolve_eq_error_iff.mp h with
  | unknown hpath hfind =>
    have hfails : s.FailsWith path (.unknownField segment model (some name)) :=
      he ▸ failsWith_explain hpath hfind
    obtain ⟨before, _, _, rest, hsplit, hl, hdepth, hfails⟩ := hfails
    generalize hcause : SchemaError.Cause.unknownField segment model (some name) = cause at hfails
    cases hfails with
    | @unknown m hm hnone =>
      obtain ⟨rfl, rfl, hclosest⟩ := SchemaError.Cause.unknownField.inj hcause
      obtain ⟨hknown, -, -, hnearest⟩ := Text.closest?_spec hclosest.symm
      obtain ⟨f, hf, hname⟩ := List.mem_map.mp hknown
      refine ⟨before, rest, f, hsplit, hl, hdepth, ⟨m, hm, hf⟩, hname, ?_⟩
      rintro g ⟨m', hm', hg⟩
      obtain rfl : m = m' := Option.some.inj (hm.symm.trans hm')
      exact hnearest g.name (List.mem_map_of_mem hg) (sound_of_declares ⟨m, hm, hg⟩).name_ne_empty
    | _ => cases hcause
  | _ => cases he

/-- **A relation without a default field is offered the example behind it**: its path leads to the
model with the example, and the offered text is its own with one name more. -/
theorem example_of_bareRelation {path : List String} {e : SchemaError}
    {key target instead : String} (h : s.resolve path = .error e)
    (he : e.cause = .bareRelation key target instead) :
    key = dotted path ∧ instead = key ++ "." ++ s.exampleField target
      ∧ s.Leads s.root (splitPoints key) target
      ∧ ∃ m, s.registry.model? target = some m := by
  cases resolve_eq_error_iff.mp h with
  | unknown hpath hfind =>
    have hfails : s.FailsWith path (.bareRelation key target instead) :=
      he ▸ failsWith_explain hpath hfind
    obtain ⟨_, _, _, _, -, -, -, hfails⟩ := hfails
    cases hfails
  | @bare G _ hfind ht _ =>
    obtain ⟨rfl, rfl, rfl⟩ := SchemaError.Cause.bareRelation.inj he
    obtain ⟨hreach, hkey⟩ := find?_eq_some_iff.mp hfind
    have hnames : splitPoints (dotted path) = G.path := hkey ▸ hreach.splitPoints_dotted
    obtain ⟨before, hl, -, hf, hpath, hallows⟩ := hreach
    obtain ⟨target, hm, ha⟩ := hallows ht
    obtain ⟨target', m, hm', hmodel, -⟩ := (sound_of_declares hf).leads ht
    obtain rfl : target = target' := Option.some.inj (hm.symm.trans hm')
    rw [hm, hnames, hpath]
    exact ⟨rfl, rfl, hl.behind hf ht hm ha, m, hmodel⟩
  | _ => cases he

/-- **What an error offers.** For an unknown segment it is a name that the model at hand declares,
one of the nearest to the segment, and with this name in the place of the segment the path is a
field of the schema unless the name is that of a relation to a hidden model. For a relation
without a default field it is a path with one name more, that of a field with values if the model
behind the relation declares one. Where `maxDepth` lets a segment follow the relation, the longer
path resolves exactly if its last name is that of a field with values, or of a relation that
stands for a default field and may itself be followed. -/
theorem resolve_offers {path : List String} {e : SchemaError} (h : s.resolve path = .error e) :
    (∀ segment model name, e.cause = .unknownField segment model (some name) →
      ∃ before rest f, path = before ++ segment :: rest ∧ s.Leads s.root before model
        ∧ s.registry.Declares model f ∧ f.name = name
        ∧ (∀ g, s.registry.Declares model g →
          Text.distance segment name ≤ Text.distance segment g.name)
        ∧ ((∃ F ∈ s.fields, F.dotted = dotted (before ++ [name]))
          ↔ ∀ target, f.model = some target → s.options.allows target = true))
    ∧ ∀ key target instead, e.cause = .bareRelation key target instead →
      ∃ name, key = dotted path ∧ instead = key ++ "." ++ name
        ∧ ((∃ d, s.registry.Declares target d ∧ d.type ≠ .relation) →
          ∃ d, s.registry.Declares target d ∧ d.type ≠ .relation ∧ d.name = name)
        ∧ ((splitPoints key).length ≤ s.options.maxDepth →
          ((∃ F, s.resolve (splitPoints instead) = .ok F)
            ↔ ∃ d, s.registry.Declares target d ∧ d.name = name
              ∧ (d.type ≠ .relation
                ∨ (∃ model, d.model = some model ∧ s.options.allows model = true)
                  ∧ d.defaultField.isSome = true
                  ∧ (splitPoints key).length + 1 ≤ s.options.maxDepth))) := by
  constructor
  · intro segment model name he
    obtain ⟨before, rest, f, hpath, hl, hdepth, hf, rfl, hnearest⟩ := sibling_of_unknownField h he
    exact ⟨before, rest, f, hpath, hl, hf, rfl, hnearest, fields_of_sibling hl hdepth hf⟩
  · intro key target instead he
    obtain ⟨hkey, rfl, hl, m, hm⟩ := example_of_bareRelation h he
    have hexample := exampleField_spec hm
    refine ⟨s.exampleField target, hkey, rfl, ?_, fun hroom => ?_⟩
    · rintro ⟨d, ⟨m', hm', hd⟩, ht⟩
      obtain rfl : m = m' := Option.some.inj (hm.symm.trans hm')
      rcases hexample with ⟨d', hd', ht', hname⟩ | ⟨hrelations, -⟩ | ⟨hnone, -⟩
      · exact ⟨d', ⟨m, hm, hd'⟩, ht', hname.symm⟩
      · exact absurd (hrelations d hd) ht
      · exact absurd hd (hnone ▸ List.not_mem_nil)
    · have hnames : splitPoints (key ++ "." ++ s.exampleField target)
          = splitPoints key ++ [s.exampleField target] :=
        splitPoints_append_point hl.no_point (exampleField_no_point hm)
      have hresolves : ∀ F, s.resolve (splitPoints (key ++ "." ++ s.exampleField target)) = .ok F
          ↔ s.ResolvesTo (splitPoints key ++ [s.exampleField target]) F := by
        intro F
        rw [resolve_eq_ok_iff (splitPoints_ne_nil _), dotted_splitPoints, hnames]
      rw [exists_congr hresolves, exists_resolvesTo_iff hl]
      refine exists_congr fun d => and_congr_right fun _ => and_congr_right fun _ => ?_
      by_cases ht : d.type = .relation <;> simp [ht, hroom]

/-- Both offers lead to the name of the author: one for a misspelt name behind the relation, one
for the relation alone. -/
theorem resolve_offers_name :
    let author := FieldDef.relation "author" "user"
    let name := FieldDef.plain "name" .text
    let registry := (Registry.empty.withModel "post" ⟨[author]⟩).withModel "user" ⟨[name]⟩
    ∃ s : Schema, build registry "post" .standard = .ok s
      ∧ s.resolve ["author", "nmae"]
        = .error (.about "author.nmae" (.unknownField "nmae" "user" (some "name")))
      ∧ (∃ F ∈ s.fields, F.dotted = dotted ["author", "name"])
      ∧ s.resolve ["author"]
        = .error (.about "author" (.bareRelation "author" "user" "author.name"))
      ∧ ∃ F, s.resolve (splitPoints "author.name") = .ok F := by
  intro author name registry
  let s : Schema := ⟨registry, "post", .standard, by decide +kernel, by decide +kernel⟩
  have hmisspelt : s.resolve ["author", "nmae"]
      = .error (.about "author.nmae" (.unknownField "nmae" "user" (some "name"))) := by
      decide +kernel
  have hbare : s.resolve ["author"]
      = .error (.about "author" (.bareRelation "author" "user" "author.name")) := by
    decide +kernel
  have hname : s.registry.Declares "user" name := ⟨⟨[name]⟩, by decide +kernel, by simp⟩
  refine ⟨s, build_eq_ok_iff.mpr ⟨rfl, rfl, rfl⟩, hmisspelt, ?_, hbare, ?_⟩
  · obtain ⟨before, rest, f, hpath, -, hf, hsibling, -, hfields⟩ :=
      (resolve_offers hmisspelt).1 _ _ _ rfl
    obtain rfl : f = name := declares_unique hf hname hsibling
    obtain rfl : before = ["author"] := by
      cases before with
      | nil => exact absurd (List.cons.inj hpath).1 (by decide)
      | cons first before =>
        obtain ⟨rfl, htail⟩ := List.cons.inj hpath
        cases before with
        | nil => rfl
        | cons second before => exact absurd (List.cons.inj htail).2 (by simp)
    have hplain : ∀ target, name.model = some target → s.options.allows target = true := by
      intro target hm
      cases hm
    exact hfields.mpr hplain
  · obtain ⟨offered, -, -, hvalues, hroom⟩ := (resolve_offers hbare).2 _ _ _ rfl
    obtain ⟨d, hd, ht, hoffered⟩ := hvalues ⟨name, hname, by decide⟩
    exact (hroom (by decide +kernel)).mpr ⟨d, hd, hoffered, Or.inl ht⟩

/-- **Not every offer can be taken.** The similar name may be that of a relation to a hidden
model, a model without fields has nothing to offer, and a model of relations may offer one that
stands for no field either. -/
theorem resolve_offers_hidden :
    let author := FieldDef.relation "author" "user"
    let tag := FieldDef.relation "tag" "tag"
    let group := FieldDef.relation "group" "group"
    let registry := (((Registry.empty.withModel "post" ⟨[author, tag, group]⟩).withModel "user"
      ⟨[.plain "name" .text]⟩).withModel "tag" ⟨[]⟩).withModel "group"
      ⟨[.relation "parent" "group"]⟩
    ∃ s : Schema, build registry "post" ⟨2, none, .ofNames ["user"]⟩ = .ok s
      ∧ (s.resolve ["auther"]
        = .error (.about "auther" (.unknownField "auther" "post" (some "author")))
        ∧ ∀ F ∈ s.fields, F.dotted ≠ "author")
      ∧ (s.resolve ["tag"] = .error (.about "tag" (.bareRelation "tag" "tag" "tag.id"))
        ∧ ∃ e, s.resolve (splitPoints "tag.id") = .error e)
      ∧ s.resolve ["group"]
        = .error (.about "group" (.bareRelation "group" "group" "group.parent"))
      ∧ ∃ e, s.resolve (splitPoints "group.parent") = .error e := by
  intro author tag group registry
  let s : Schema :=
    ⟨registry, "post", ⟨2, none, .ofNames ["user"]⟩, by decide +kernel, by decide +kernel⟩
  refine ⟨s, build_eq_ok_iff.mpr ⟨rfl, rfl, rfl⟩, ⟨?_, ?_⟩, ⟨?_, ?_⟩, ?_, ?_⟩
  · decide +kernel
  · exact find?_eq_none_iff.mp (by decide +kernel)
  · decide +kernel
  · exact ⟨.about "tag.id" (.unknownField "id" "tag" none), by decide +kernel⟩
  · decide +kernel
  · exact ⟨.about "group.parent" (.bareRelation "group.parent" "group" "group.parent.parent"),
      by decide +kernel⟩

end Schema
end RecordQuery
