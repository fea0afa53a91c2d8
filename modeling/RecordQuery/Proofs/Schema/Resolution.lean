import RecordQuery.Proofs.Schema.Reach

/-!
# Resolving is walking

`Schema.resolve` joins a path with points and looks the text up among all fields of the schema.
What it finds can be said by following the path from the root, one name after the other
(`ResolvesTo`): every name but the last is a relation that the options allow, and the last one is
a field with values, or else a relation that stands for its default field. Both views agree
(`resolve_eq_ok_iff`). The names are those that the joined path is cut into, so a segment with a
point counts as several names.

A default field lies one relation further than the path that it stands for, so the last relation
of such a path counts towards `maxDepth`; that of the path to a field does not.
-/

namespace RecordQuery.Schema

/-- **A schema is built of every registry that is consistent and has the root**, and
keeps what it is built of. -/
theorem build_eq_ok_iff {registry : Registry} {root : String} {options : Options} {s : Schema} :
    build registry root options = .ok s
      ↔ s.registry = registry ∧ s.root = root ∧ s.options = options := by
  unfold build
  constructor
  · intro h
    split at h
    · split at h
      · obtain rfl := Except.ok.inj h
        exact ⟨rfl, rfl, rfl⟩
      · exact nomatch h
    · exact nomatch h
  · rintro ⟨rfl, rfl, rfl⟩
    rw [dif_pos s.rooted]
    split
    · rfl
    · rename_i e he
      exact absurd (he.symm.trans s.consistent) (by simp)

/-- **What a path of names stands for**, seen from the root: the field at its end, or the default
field of the relation at its end. -/
inductive ResolvesTo (s : Schema) : List String → Field → Prop
  | value {before : List String} {model : String} {f : FieldDef} (hl : s.Leads s.root before model)
      (hdepth : before.length ≤ s.options.maxDepth) (hf : s.registry.Declares model f)
      (ht : f.type ≠ .relation) : ResolvesTo s (before ++ [f.name]) ⟨before ++ [f.name], model, f⟩
  | default {before : List String} {model target : String} {f d : FieldDef}
      (hl : s.Leads s.root before model) (hf : s.registry.Declares model f)
      (ht : f.type = .relation)
      (hm : f.model = some target) (ha : s.options.allows target = true)
      (hdefault : f.defaultField = some d.name) (hdepth : before.length + 1 ≤ s.options.maxDepth)
      (hd : s.registry.Declares target d) :
      ResolvesTo s (before ++ [f.name]) ⟨before ++ [f.name] ++ [d.name], target, d⟩

variable {s : Schema} {F G : Field}

/-- The default field of a relation is a field with values of the model behind it. -/
theorem declares_default {model target name : String} {f : FieldDef}
    (hf : s.registry.Declares model f) (hm : f.model = some target)
    (hdefault : f.defaultField = some name) :
    ∃ d, s.registry.Declares target d ∧ d.name = name ∧ d.type ≠ .relation := by
  obtain ⟨target', m, hm', hmodel, hfound⟩ := (sound_of_declares hf).leads (relation_of_model hf hm)
  obtain rfl : target = target' := Option.some.inj (hm.symm.trans hm')
  obtain ⟨d, hd, ht⟩ := hfound name hdefault
  unfold Model.field? at hd
  exact ⟨d, ⟨m, hmodel, List.mem_of_find?_eq_some hd⟩, by simpa using List.find?_some hd, ht⟩

/-- **What is reached behind a relation** is declared by the model that the relation leads to. -/
theorem Reaches.behind {name : String} (hG : s.Reaches G) (hF : s.Reaches F)
    (hpath : F.path = G.path ++ [name]) :
    G.definition.model = some F.model ∧ F.definition.name = name
      ∧ G.path.length ≤ s.options.maxDepth := by
  obtain ⟨before, hl, hdepth, hd, hFpath, -⟩ := hF
  obtain ⟨hbefore, hname⟩ := List.append_inj' (hFpath.symm.trans hpath) rfl
  subst hbefore
  obtain ⟨before, hl', -, hd', hGpath, -⟩ := hG
  rw [hGpath, leads_append_singleton] at hl
  obtain ⟨mid, f, hmid, hf, hfname, -, hm, -⟩ := hl
  obtain rfl : mid = G.model := hmid.unique hl'
  obtain rfl : f = G.definition := declares_unique hf hd' hfname
  exact ⟨hm, (List.cons.inj hname).1, hdepth⟩

/-- The text of a relation and of a name behind it is the text of a path, since the name has no
point. -/
theorem Reaches.path_of_dotted {name : String} (hG : s.Reaches G) (hF : s.Reaches F)
    (hname : '.' ∉ name.toList) (h : F.dotted = G.dotted ++ "." ++ name) :
    F.path = G.path ++ [name] := by
  have hG' : splitPoints G.dotted = G.path := hG.splitPoints_dotted
  rw [← hF.splitPoints_dotted, h, splitPoints_append_point (hG' ▸ hG.no_point) hname, hG']

/-! ## What a path stands for -/

/-- A reached field with values is what its path stands for. -/
theorem Reaches.resolvesTo (h : s.Reaches F) (ht : F.type ≠ .relation) : s.ResolvesTo F.path F := by
  obtain ⟨before, hl, hdepth, hd, hpath, -⟩ := h
  obtain ⟨path, model, f⟩ := F
  obtain rfl : path = before ++ [f.name] := hpath
  exact .value hl hdepth hd ht

/-- A reached relation stands for its default field, if that is reached. -/
theorem Reaches.resolvesTo_default {name : String} (hG : s.Reaches G) (ht : G.type = .relation)
    (hdefault : G.definition.defaultField = some name) (hF : s.Reaches F)
    (hkey : F.dotted = G.dotted ++ "." ++ name) : s.ResolvesTo G.path F := by
  have hreach := hG
  obtain ⟨before, hl, -, hd, hpath, hallows⟩ := hG
  obtain ⟨target, hm, ha⟩ := hallows ht
  obtain ⟨d, hd', rfl, -⟩ := declares_default hd hm hdefault
  have hlong : F.path = G.path ++ [d.name] :=
    hreach.path_of_dotted hF (sound_of_declares hd').no_point hkey
  obtain ⟨hm', hname, hdepth⟩ := hreach.behind hF hlong
  obtain rfl : target = F.model := Option.some.inj (hm.symm.trans hm')
  obtain ⟨-, -, -, hdF, -, -⟩ := hF
  obtain rfl : d = F.definition := declares_unique hd' hdF hname.symm
  obtain ⟨path, model, d⟩ := F
  obtain rfl : path = G.path ++ [d.name] := hlong
  rw [hpath] at hdepth ⊢
  rw [List.length_append] at hdepth
  exact .default hl hd ht hm ha hdefault hdepth hd'

/-- **What a path stands for is reached**, at the end of the path or at the default field behind
it. -/
theorem ResolvesTo.reaches {names : List String} (h : s.ResolvesTo names F) :
    ∃ G, s.Reaches G ∧ G.path = names
      ∧ (G.type ≠ .relation ∧ F = G
        ∨ G.type = .relation ∧ ∃ name, G.definition.defaultField = some name ∧ s.Reaches F
          ∧ F.dotted = G.dotted ++ "." ++ name) := by
  cases h with
  | @value before model f hl hdepth hf ht =>
    refine ⟨⟨before ++ [f.name], model, f⟩, ?_, rfl, Or.inl ⟨ht, rfl⟩⟩
    exact ⟨before, hl, hdepth, hf, rfl, fun hr => absurd hr ht⟩
  | @default before model target f d hl hf ht hm ha hdefault hdepth hd =>
    have hbehind : s.Leads s.root (before ++ [f.name]) target :=
      leads_append_singleton.mpr ⟨model, f, hl, hf, rfl, ht, hm, ha⟩
    obtain ⟨d', hd', hname, ht'⟩ := declares_default hf hm hdefault
    obtain rfl : d' = d := declares_unique hd' hd hname
    refine ⟨⟨before ++ [f.name], model, f⟩, ?_, rfl, Or.inr ⟨ht, d'.name, hdefault, ?_, ?_⟩⟩
    · exact ⟨before, hl, Nat.le_of_succ_le hdepth, hf, rfl, fun _ => ⟨target, hm, ha⟩⟩
    · refine ⟨before ++ [f.name], hbehind, ?_, hd, rfl, fun hr => absurd hr ht'⟩
      rwa [List.length_append]
    · exact dotted_append_singleton (by simp) d'.name

/-! ## Resolving -/

/-- **A path resolves to the field that is found at it**, or to the one that is found at the
default field behind it. -/
theorem resolve_eq_ok_iff_find? {path : List String} (hne : path ≠ []) :
    s.resolve path = .ok F
      ↔ ∃ G, s.find? (dotted path) = some G
        ∧ (G.type ≠ .relation ∧ F = G
          ∨ G.type = .relation ∧ ∃ name, G.definition.defaultField = some name
            ∧ s.find? (dotted path ++ "." ++ name) = some F) := by
  unfold resolve
  rw [if_neg hne]
  cases hfind : s.find? (dotted path) with
  | none => simp [hfind]
  | some G =>
    simp only [hfind, Option.some.injEq, exists_eq_left']
    unfold Field.isRelation defaultOf
    by_cases ht : G.type = .relation
    · simp only [ht, decide_true, if_true, ne_eq, not_true, false_and, false_or, true_and]
      cases G.definition.defaultField with
      | none => simp
      | some name =>
        simp only [Option.some.injEq, exists_eq_left']
        cases s.find? (dotted path ++ "." ++ name) <;> simp
    · simp [ht, eq_comm]

/-- **A path resolves to what its names stand for.** -/
theorem resolve_eq_ok_iff {path : List String} (hne : path ≠ []) :
    s.resolve path = .ok F ↔ s.ResolvesTo (splitPoints (dotted path)) F := by
  rw [resolve_eq_ok_iff_find? hne]
  constructor
  · rintro ⟨G, hfind, hG⟩
    obtain ⟨hreach, hkey⟩ := find?_eq_some_iff.mp hfind
    rw [← hkey, hreach.splitPoints_dotted]
    rcases hG with ⟨ht, rfl⟩ | ⟨ht, name, hdefault, hfind'⟩
    · exact hreach.resolvesTo ht
    · obtain ⟨hreach', hkey'⟩ := find?_eq_some_iff.mp hfind'
      exact hreach.resolvesTo_default ht hdefault hreach' (hkey ▸ hkey')
  · intro h
    obtain ⟨G, hG, hpath, hcase⟩ := h.reaches
    have hkey : G.dotted = dotted path := by
      show dotted G.path = _
      rw [hpath, dotted_splitPoints]
    refine ⟨G, find?_eq_some_iff.mpr ⟨hG, hkey⟩, hcase.imp_right ?_⟩
    rintro ⟨ht, name, hdefault, hF, hkey'⟩
    exact ⟨ht, name, hdefault, find?_eq_some_iff.mpr ⟨hF, hkey ▸ hkey'⟩⟩

/-- What a path stands for has values. -/
theorem ResolvesTo.type_ne_relation {names : List String} (h : s.ResolvesTo names F) :
    F.type ≠ .relation := by
  cases h with
  | value _ _ _ ht => exact ht
  | default _ hf _ hm _ hdefault _ hd =>
    obtain ⟨d', hd', hname, ht'⟩ := declares_default hf hm hdefault
    obtain rfl := declares_unique hd' hd hname
    exact ht'

/-- **A path never resolves to a relation.** -/
theorem type_ne_relation_of_resolve {path : List String} (h : s.resolve path = .ok F) :
    F.type ≠ .relation := by
  have hne : path ≠ [] := by
    rintro rfl
    exact nomatch h
  exact ((resolve_eq_ok_iff hne).mp h).type_ne_relation

/-- **What a path resolves to is reached.** -/
theorem reaches_of_resolve {path : List String} (h : s.resolve path = .ok F) : s.Reaches F := by
  have hne : path ≠ [] := by
    rintro rfl
    exact nomatch h
  obtain ⟨G, hG, -, ⟨-, rfl⟩ | ⟨-, -, -, hF, -⟩⟩ := ((resolve_eq_ok_iff hne).mp h).reaches
  · exact hG
  · exact hF

/-- A reached field with values is what its path resolves to. -/
theorem Reaches.resolve_path (h : s.Reaches F) (ht : F.type ≠ .relation) :
    s.resolve F.path = .ok F :=
  (resolve_eq_ok_iff_find? h.path_ne_nil).mpr
    ⟨F, find?_eq_some_iff.mpr ⟨h, rfl⟩, Or.inl ⟨ht, rfl⟩⟩

/-! ## The two views of a schema -/

/-- **Resolving and listing are walking.** A path resolves to a field exactly when its names stand
for the field, and to an error when they stand for nothing. The listed fields are the reached
ones, by strictly increasing text, and each one with values is what its own path resolves to. -/
theorem resolve_fields_walk (s : Schema) :
    (∀ path : List String, path ≠ [] →
      (∀ F, s.resolve path = .ok F ↔ s.ResolvesTo (splitPoints (dotted path)) F)
      ∧ ((∀ F, ¬ s.ResolvesTo (splitPoints (dotted path)) F) → ∃ e, s.resolve path = .error e))
    ∧ (∀ F, F ∈ s.fields ↔ s.Reaches F)
    ∧ (s.fields.Pairwise fun F G => F.dotted < G.dotted)
    ∧ ∀ F ∈ s.fields, F.type ≠ .relation → s.resolve F.path = .ok F := by
  refine ⟨fun path hne => ⟨fun F => resolve_eq_ok_iff hne, fun hnone => ?_⟩,
    fun F => mem_fields_iff, pairwise_fields s,
    fun F hF ht => (mem_fields_iff.mp hF).resolve_path ht⟩
  cases hres : s.resolve path with
  | ok F => exact absurd ((resolve_eq_ok_iff hne).mp hres) (hnone F)
  | error e => exact ⟨e, rfl⟩

/-- The relation `author` of a post stands for the name of its author, and a post has no `title`. -/
theorem resolve_author :
    let name := FieldDef.plain "name" .text
    let author := { FieldDef.relation "author" "user" with defaultField := some "name" }
    let registry := (Registry.empty.withModel "post" ⟨[author]⟩).withModel "user" ⟨[name]⟩
    ∃ s : Schema, build registry "post" .standard = .ok s
      ∧ s.resolve ["author"] = .ok ⟨["author", "name"], "user", name⟩
      ∧ s.resolve ["author", "name"] = .ok ⟨["author", "name"], "user", name⟩
      ∧ ∃ e, s.resolve ["title"] = .error e := by
  intro name author registry
  let s : Schema := ⟨registry, "post", .standard, by decide +kernel, by decide +kernel⟩
  have hauthor : s.registry.Declares "post" author := ⟨⟨[author]⟩, by decide +kernel, by simp⟩
  have hname : s.registry.Declares "user" name := ⟨⟨[name]⟩, by decide +kernel, by simp⟩
  have hleads : s.Leads s.root ["author"] "user" :=
    .follow hauthor rfl rfl (by decide +kernel) .here
  obtain ⟨hresolve, hfields, -, hself⟩ := resolve_fields_walk s
  refine ⟨s, build_eq_ok_iff.mpr ⟨rfl, rfl, rfl⟩, ?_, ?_, ?_⟩
  · have hnames : splitPoints (dotted ["author"]) = ["author"] := by decide +kernel
    rw [(hresolve ["author"] (by simp)).1, hnames]
    exact .default .here hauthor rfl rfl (by decide +kernel) rfl (by decide) hname
  · refine hself ⟨["author", "name"], "user", name⟩ ((hfields _).mpr ?_) (by decide)
    exact ⟨["author"], hleads, by decide, hname, rfl, fun h => absurd h (by decide)⟩
  · have hnames : splitPoints (dotted ["title"]) = ["title"] := by decide +kernel
    refine (hresolve ["title"] (by simp)).2 fun F h => ?_
    rw [hnames] at h
    have hnone : ∀ {f : FieldDef} {model : String}, s.Leads s.root [] model →
        s.registry.Declares model f → f.name ≠ "title" := by
      intro f model hl ⟨m, hm, hf⟩ htitle
      cases hl
      obtain rfl : (⟨[author]⟩ : Model) = m := Option.some.inj hm
      obtain rfl := List.mem_singleton.mp hf
      exact absurd htitle (by decide)
    obtain ⟨G, ⟨before, hl, -, hd, hpath, -⟩, hG, -⟩ := h.reaches
    have hends : [] ++ ["title"] = before ++ [G.definition.name] := hG.symm.trans hpath
    obtain ⟨rfl, hlast⟩ := List.append_inj' hends rfl
    exact hnone hl hd (List.cons.inj hlast).1.symm

end RecordQuery.Schema
