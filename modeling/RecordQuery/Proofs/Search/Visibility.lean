import RecordQuery.Proofs.Search.Meaning

/-!
# What a query can read

The options of a schema decide which fields exist for a query: those behind at most `maxDepth`
relations, each of which enters a model that the options allow. A query cannot get around them.
Every field that an accepted query reads is one of those fields, whether it stands on the left or
on the right of a comparison and whether it was written or is the default field of a relation that
was. So two records that agree on these fields are told apart by no query, whatever they hold
elsewhere (`search_reads_shown`).

The second statement does not follow from the first alone. It also takes that a predicate looks at
a record nowhere but at the paths of its fields (`Predicate.holds_congr`).
-/

namespace RecordQuery

/-! ## What a predicate looks at -/

/-- What stands on the other side of a comparison is looked at only if it is a field. -/
theorem anyStands_congr {a b : Json} {vs : List Json} {op : Operator} {t : Target}
    (h : ∀ r ∈ t.fields, valuesAt a r.path = valuesAt b r.path) :
    anyStands a vs op t = anyStands b vs op t := by
  cases t with
  | scalar v => rfl
  | list vs => rfl
  | field r =>
    have hr : valuesAt a r.path = valuesAt b r.path := h r List.mem_cons_self
    simp only [anyStands, hr]

/-- **A predicate looks at the values of its fields only.** -/
theorem Predicate.holds_congr {p : Predicate} {a b : Json}
    (h : ∀ r ∈ p.fields, valuesAt a r.path = valuesAt b r.path) : p.holds a = p.holds b := by
  induction p with
  | compare r op t =>
    obtain ⟨hr, ht⟩ := List.forall_mem_cons.mp h
    unfold holds comparisonHolds
    simp only [hr, anyStands_congr ht]
  | isNull r negated =>
    unfold holds
    rw [h r List.mem_cons_self]
  | nothing => rfl
  | and left right ihl ihr =>
    obtain ⟨hl, hr⟩ := List.forall_mem_append.mp h
    unfold holds
    rw [ihl hl, ihr hr]
  | or left right ihl ihr =>
    obtain ⟨hl, hr⟩ := List.forall_mem_append.mp h
    unfold holds
    rw [ihl hl, ihr hr]
  | not operand ih =>
    unfold holds
    rw [ih h]

variable {s : Schema} {p : Predicate}

/-- **A well-typed predicate has fields of the schema only.** -/
theorem Predicate.WellTyped.names (h : p.WellTyped s) : ∀ r ∈ p.fields, ∃ F, r.Names s F := by
  induction p with
  | compare r op t =>
    obtain ⟨F, hF, -, ht⟩ := h
    refine List.forall_mem_cons.mpr ⟨⟨F, hF⟩, ?_⟩
    cases t with
    | scalar v => exact nofun
    | list vs => exact nofun
    | field r' =>
      obtain ⟨-, G, hG, -⟩ := ht
      exact List.forall_mem_singleton.mpr ⟨G, hG⟩
  | isNull r negated => exact List.forall_mem_singleton.mpr h
  | nothing => exact nofun
  | and left right ihl ihr => exact List.forall_mem_append.mpr ⟨ihl h.1, ihr h.2⟩
  | or left right ihl ihr => exact List.forall_mem_append.mpr ⟨ihl h.1, ihr h.2⟩
  | not operand ih => exact ih h

/-! ## What a query looks at -/

/-- **Two records agree on what a schema shows**: they have the same values at the path of every
field that is no relation. -/
def Schema.Agree (s : Schema) (a b : Json) : Prop :=
  ∀ F ∈ s.fields, F.type ≠ .relation → valuesAt a F.path = valuesAt b F.path

/-- **A query reads what the schema shows.** Every field of its predicate is a listed one with
values; at most `maxDepth` relations lead to it, and the options allow every model on the way.
Records that agree on the listed fields are both found or both not. -/
theorem search_reads_shown {q : String} (h : search s q = .ok (some p)) :
    (∀ r ∈ p.fields, ∃ F ∈ s.fields, F.type ≠ .relation ∧ r.path = F.path ∧ r.type = F.type
      ∧ ∃ relations, r.path = relations ++ [F.definition.name]
        ∧ s.Leads s.root relations F.model ∧ relations.length ≤ s.options.maxDepth)
      ∧ ∀ a b, s.Agree a b → p.holds a = p.holds b := by
  obtain ⟨e, -, hmeans⟩ := search_eq_some_iff.mp h
  have hnames : ∀ r ∈ p.fields, ∃ F, r.Names s F := hmeans.wellTyped.names
  constructor
  · intro r hr
    obtain ⟨F, hF, hvalues, hpath, htype⟩ := hnames r hr
    refine ⟨F, Schema.mem_fields_iff.mpr hF, hvalues, hpath, htype, ?_⟩
    obtain ⟨relations, hl, hdepth, -, hends, -⟩ := hF
    exact ⟨relations, hpath.trans hends, hl, hdepth⟩
  · intro a b hagree
    refine Predicate.holds_congr fun r hr => ?_
    obtain ⟨F, hF, hvalues, hpath, -⟩ := hnames r hr
    rw [hpath]
    exact hagree F (Schema.mem_fields_iff.mpr hF) hvalues

/-- The account of an author is hidden: no query that is accepted tells apart two posts that
differ in it, and this one reads the author's name on both sides. -/
theorem search_reads_author :
    let name := FieldDef.plain "name" .text
    let author := { FieldDef.relation "author" "user" with defaultField := some "name" }
    let registry :=
      ((Registry.empty.withModel "post" ⟨[.plain "title" .text, author]⟩).withModel "user"
      ⟨[name, .relation "account" "account"]⟩).withModel "account" ⟨[.plain "iban" .text]⟩
    let s : Schema := ⟨registry, "post", ⟨2, none, .ofNames ["account"]⟩, by decide +kernel,
      by decide +kernel⟩
    let post (iban : String) : Json := .object [("title", .string "Ann"), ("author", .array
      [.object [("name", .string "Ann"), ("account", .object [("iban", .string iban)])]])]
    let p : Predicate := .and
      (.compare ⟨["author", "name"], .text⟩ .equal (.field ⟨["title"], .text⟩))
      (.compare ⟨["title"], .text⟩ .notEqual (.field ⟨["author", "name"], .text⟩))
    search s "author = title and title != author.name" = .ok (some p)
      ∧ s.Agree (post "1") (post "2") ∧ p.holds (post "1") = p.holds (post "2") := by
  intro name author registry s post p
  have hsearch : search s "author = title and title != author.name" = .ok (some p) := by
    decide +kernel
  have hwalk : s.walk = [⟨["title"], "post", .plain "title" .text⟩, ⟨["author"], "post", author⟩,
      ⟨["author", "name"], "user", name⟩] := by decide +kernel
  have hagree : s.Agree (post "1") (post "2") := by
    intro F hF hvalues
    rw [Schema.mem_fields_iff, ← Schema.mem_walk_iff, hwalk] at hF
    simp only [List.mem_cons, List.not_mem_nil, or_false] at hF
    obtain rfl | rfl | rfl := hF
    · rfl
    · exact absurd rfl hvalues
    · rfl
  exact ⟨hsearch, hagree, (search_reads_shown hsearch).2 _ _ hagree⟩

end RecordQuery
