import RecordQuery.Proofs.Search.Meaning

/-!
# Looser options

Options are looser than others if they let paths take at least as many relations and let relations
enter at least the same models (`Options.Loosens`). A schema with looser options shows more
fields, and a query that has a predicate keeps it, since the new fields come under new paths only.

That is not clear from `Schema.resolve`, which looks a text up among all fields, the new ones
included. It is clear from the walk that resolving amounts to: every relation of the walk stays,
and names still determine which relation is taken. From there the way to queries is short, because
a predicate depends on the schema through the fields that its paths resolve to and through nothing
else (`Means.of_resolves`).
-/

namespace RecordQuery

/-- **Options are looser than others**: they show at least what the others show. -/
structure Options.Loosens (o o' : Options) : Prop where
  /-- Paths may take as many relations. -/
  maxDepth_le : o'.maxDepth ≤ o.maxDepth
  /-- Relations may enter the same models. -/
  allows_of_allows : ∀ model, o'.allows model = true → o.allows model = true

/-- **Options that exclude fewer models and include more are looser.** -/
theorem Options.Loosens.of_names {o o' : Options} (hdepth : o'.maxDepth ≤ o.maxDepth)
    (hexcluded : o.excluded.names ⊆ o'.excluded.names)
    (hincluded : ∀ s ∈ o.included, ∃ s' ∈ o'.included, s'.names ⊆ s.names) : o.Loosens o' := by
  refine ⟨hdepth, fun model hallows => ?_⟩
  rw [allows_iff] at hallows ⊢
  obtain ⟨hnot, hall⟩ := hallows
  refine ⟨fun hmem => hnot (hexcluded hmem), fun s hs => ?_⟩
  obtain ⟨s', hs', hsub⟩ := hincluded s hs
  exact hsub (hall s' hs')

namespace Schema

/-- **A schema is looser than another**: it is built of the same registry and the same
root with looser options. -/
structure Loosens (s s' : Schema) : Prop where
  /-- The models are the same. -/
  registry_eq : s.registry = s'.registry
  /-- Paths start from the same model. -/
  root_eq : s.root = s'.root
  /-- The options are looser. -/
  options : s.options.Loosens s'.options

/-- **Options do not matter for whether a schema is built.** -/
theorem exists_loosens_of_build {registry : Registry} {root : String} {o o' : Options} {s' : Schema}
    (ho : o.Loosens o') (hs' : build registry root o' = .ok s') :
    ∃ s, build registry root o = .ok s ∧ s.Loosens s' := by
  obtain ⟨rfl, rfl, rfl⟩ := build_eq_ok_iff.mp hs'
  let s : Schema := ⟨s'.registry, s'.root, o, s'.rooted, s'.consistent⟩
  exact ⟨s, build_eq_ok_iff.mpr ⟨rfl, rfl, rfl⟩, rfl, rfl, ho⟩

namespace Loosens

variable {s s' : Schema}

/-- The relations of a walk are still taken. -/
theorem leads (h : s.Loosens s') {model last : String} {names : List String}
    (hl : s'.Leads model names last) : s.Leads model names last := by
  induction hl with
  | here => exact .here
  | follow hf ht hm ha _ ih =>
    exact .follow (h.registry_eq ▸ hf) ht hm (h.options.allows_of_allows _ ha) ih

/-- The same walk from the root of the looser schema. -/
theorem leads_root (h : s.Loosens s') {last : String} {names : List String}
    (hl : s'.Leads s'.root names last) : s.Leads s.root names last :=
  h.root_eq ▸ h.leads hl

/-- **A path of names stands for the same field.** -/
theorem resolvesTo (h : s.Loosens s') {names : List String} {F : Field}
    (hF : s'.ResolvesTo names F) : s.ResolvesTo names F := by
  cases hF with
  | value hl hdepth hf ht =>
    exact .value (h.leads_root hl) (hdepth.trans h.options.maxDepth_le) (h.registry_eq ▸ hf) ht
  | default hl hf ht hm ha hdefault hdepth hd =>
    exact .default (h.leads_root hl) (h.registry_eq ▸ hf) ht hm (h.options.allows_of_allows _ ha)
      hdefault
      (hdepth.trans h.options.maxDepth_le) (h.registry_eq ▸ hd)

/-- **A path that resolves keeps its field.** -/
theorem resolve (h : s.Loosens s') {path : List String} {F : Field} (hF : s'.resolve path = .ok F) :
    s.resolve path = .ok F := by
  have hne : path ≠ [] := by
    rintro rfl
    exact nomatch hF
  exact (resolve_eq_ok_iff hne).mpr (h.resolvesTo ((resolve_eq_ok_iff hne).mp hF))

end Loosens
end Schema

variable {s s' : Schema} {p : Predicate}

/-! ## Meaning and resolving -/

/-- A comparison depends on the schema through the field on its other side. -/
theorem Compares.of_resolves {F : Field} {op : Operator} {v : Operand}
    (hresolve : ∀ path G, s'.resolve path = .ok G → s.resolve path = .ok G)
    (h : Compares s' F op v p) :
    Compares s F op v p := by
  cases h with
  | isNull hop => exact .isNull hop
  | isNotNull hop => exact .isNotNull hop
  | inEmpty hop hin => exact .inEmpty hop hin
  | notInEmpty hop hin => exact .notInEmpty hop hin
  | list hop hin hne hvs => exact .list hop hin hne hvs
  | literal hnull hop hin hv => exact .literal hnull hop hin hv
  | name hop hin hG ht => exact .name hop hin (hresolve _ _ hG) ht

/-- **An expression depends on the schema through the fields that its paths resolve to.** -/
theorem Means.of_resolves {e : Expr}
    (hresolve : ∀ path F, s'.resolve path = .ok F → s.resolve path = .ok F) (h : Means s' e p) :
    Means s e p := by
  induction h with
  | and _ _ ihl ihr => exact .and ihl ihr
  | or _ _ ihl ihr => exact .or ihl ihr
  | not _ ih => exact .not ih
  | comparison hF h => exact .comparison (hresolve _ _ hF) (h.of_resolves hresolve)

/-- **A search finds the same in a schema where all that resolved resolves alike.** -/
theorem search_of_resolves {q : String} {r : Option Predicate}
    (hresolve : ∀ path F, s'.resolve path = .ok F → s.resolve path = .ok F)
    (h : search s' q = .ok r) :
    search s q = .ok r := by
  cases r with
  | none => exact search_eq_none_iff.mpr (search_eq_none_iff.mp h)
  | some p =>
    obtain ⟨e, hparse, hmeans⟩ := search_eq_some_iff.mp h
    exact search_eq_some_iff.mpr ⟨e, hparse, hmeans.of_resolves hresolve⟩

/-! ## Looser schemas -/

/-- **Looser options keep what queries mean.** A schema can be built with them as well; in it
every path that resolved resolves to the same field, and every query that was accepted is accepted
with the same result. -/
theorem search_loosened {registry : Registry} {root : String} {o o' : Options} (ho : o.Loosens o')
    (hs' : Schema.build registry root o' = .ok s') :
    ∃ s, Schema.build registry root o = .ok s
      ∧ (∀ path F, s'.resolve path = .ok F → s.resolve path = .ok F)
      ∧ ∀ q r, search s' q = .ok r → search s q = .ok r := by
  obtain ⟨s, hs, h⟩ := Schema.exists_loosens_of_build ho hs'
  exact ⟨s, hs, fun _ _ => h.resolve, fun _ _ => search_of_resolves fun _ _ => h.resolve⟩

/-- The author's name of a post is read as before when relations may go on from authors to their
employers, although the employer has a name as well. -/
theorem search_loosened_author :
    let name := FieldDef.plain "name" .text
    let author := { FieldDef.relation "author" "user" with defaultField := some "name" }
    let employer := { FieldDef.relation "employer" "company" with defaultField := some "name" }
    let registry := ((Registry.empty.withModel "post" ⟨[name, author]⟩).withModel "user"
      ⟨[name, employer]⟩).withModel "company" ⟨[name]⟩
    let o' : Options := ⟨1, some (.ofNames ["user"]), .empty⟩
    let q := "author = \"Ann\" and name != author.name"
    let p : Predicate :=
      .and (.compare ⟨["author", "name"], .text⟩ .equal (.scalar (.text "Ann")))
      (.compare ⟨["name"], .text⟩ .notEqual (.field ⟨["author", "name"], .text⟩))
    Options.Loosens .standard o'
      ∧ ∃ s' s, Schema.build registry "post" o' = .ok s'
        ∧ Schema.build registry "post" .standard = .ok s
        ∧ search s' q = .ok (some p) ∧ search s q = .ok (some p) := by
  intro name author employer registry o' q p
  have ho : Options.Loosens .standard o' := ⟨by decide, fun _ _ => rfl⟩
  let s' : Schema := ⟨registry, "post", o', by decide +kernel, by decide +kernel⟩
  have hs' : Schema.build registry "post" o' = .ok s' := Schema.build_eq_ok_iff.mpr ⟨rfl, rfl, rfl⟩
  have hq : search s' q = .ok (some p) := by decide +kernel
  obtain ⟨s, hs, -, hsearch⟩ := search_loosened ho hs'
  exact ⟨ho, s', s, hs', hs, hq, hsearch q (some p) hq⟩

end RecordQuery
