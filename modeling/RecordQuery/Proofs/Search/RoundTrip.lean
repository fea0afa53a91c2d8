import RecordQuery.Proofs.Predicate.Writing
import RecordQuery.Proofs.Search.Meaning

/-!
# Searching for a predicate's own text

The predicate of a query is found again when its text is searched for (`search_render`). The text
need not be that of the query: a relation has become the path to its default field, a label the
value that it stands for, and a date given with blanks a date of full width. But every part of the
predicate stands for itself, so what was read once is read the same way again.

What a predicate lacks for that are the values that are not written exactly (`Predicate.Exact`).
All else that its text asks for it has from the query that it was read from (`Means.writable`):
its paths begin with a path that was read, its integers fit 64 bits. Only the name of a default
field was not read, so the names of the schema must be such as can be.
-/

namespace RecordQuery

variable {s : Schema} {F : Field}

/-! ## Exact predicates -/

/-- A value that is written exactly: no number but an integer, and no datetime with a fraction. -/
def Scalar.Exact : Scalar → Prop
  | .float _ => False
  | .datetime t => t.fraction = 0
  | _ => True

/-- The other side of a comparison of which every value is written exactly. -/
def Target.Exact : Target → Prop
  | .scalar v => v.Exact
  | .list vs => ∀ v ∈ vs, v.Exact
  | .field _ => True

/-- **A predicate that is written exactly**: every value is, and no part of it matches nothing. -/
def Predicate.Exact : Predicate → Prop
  | .compare _ _ t => t.Exact
  | .isNull _ _ => True
  | .nothing => False
  | .and left right | .or left right => left.Exact ∧ right.Exact
  | .not operand => operand.Exact

/-- **How deep a predicate is**: the greatest number of conjunctions, disjunctions and
negations above a comparison. -/
def Predicate.levels : Predicate → Nat
  | .and left right | .or left right => max left.levels right.levels + 1
  | .not operand => operand.levels + 1
  | _ => 0

/-- The expression of a predicate is as deep as the predicate. -/
theorem Predicate.levels_expr {p : Predicate} (h : p.Exact) : p.expr.levels = p.levels := by
  induction p with
  | compare _ _ _ | isNull _ _ => rfl
  | nothing => exact h.elim
  | and left right ihl ihr | or left right ihl ihr =>
    unfold expr Expr.levels levels
    rw [ihl h.1, ihr h.2]
  | not operand ih =>
    unfold expr Expr.levels levels
    rw [ih h]

/-! ## Paths -/

/-- No word with a point is a keyword. -/
theorem Lexer.wordKind_of_point {cs : List Char} (h : '.' ∈ cs) : wordKind cs = .name := by
  have hpoint : ∀ {word : String}, String.ofList (cs.map Char.toLower) = word →
      '.' ∈ word.toList := by
    rintro word rfl
    rw [String.toList_ofList]
    exact List.mem_map_of_mem (f := Char.toLower) h
  unfold wordKind
  split
  all_goals first
    | exact absurd (hpoint ‹_›) (by decide)
    | rfl

/-- **A name behind a path** can be written after it. -/
theorem NamePath.printable_append {p : NamePath} (hp : p.Printable) {name : String}
    (hname : name ≠ "") (hword : ∀ c ∈ name.toList, Lexer.continuesWord c = true)
    (hsplit : splitPoints (dotted (p.segments ++ [name])) = p.segments ++ [name]) :
    NamePath.Printable ⟨p.segments ++ [name], 0⟩ := by
  obtain ⟨⟨c, tail, htext, hc, htail, -⟩, hsegments, hempty⟩ := hp
  have hne : p.segments ≠ [] := hsegments ▸ splitPoints_ne_nil _
  have htext' : (dotted (p.segments ++ [name])).toList = c :: (tail ++ '.' :: name.toList) := by
    rw [dotted_append_singleton hne, String.toList_append, String.toList_append, htext]
    simp
  refine ⟨⟨c, tail ++ '.' :: name.toList, htext', hc, ?_, ?_⟩, hsplit, ?_⟩
  · rw [List.all_append, htail, List.all_cons, Bool.true_and]
    exact List.all_eq_true.mpr hword
  · rw [htext']
    exact Lexer.wordKind_of_point (by simp)
  · rw [List.mem_append, List.mem_singleton, not_or]
    exact ⟨hempty, hname.symm⟩

/-- A path resolves to the field at it, or to one more name behind it. -/
theorem Schema.ResolvesTo.path_eq {names : List String} (h : s.ResolvesTo names F) :
    F.path = names ∨ ∃ model d, s.registry.Declares model d ∧ F.path = names ++ [d.name] := by
  cases h with
  | value _ _ _ _ => exact Or.inl rfl
  | default _ _ _ _ _ _ _ hd => exact Or.inr ⟨_, _, hd, rfl⟩

/-- **The names of a schema are words**: letters, digits and underscores. -/
def Schema.PlainNames (s : Schema) : Prop :=
  ∀ model f, s.registry.Declares model f → ∀ c ∈ f.name.toList, c.isAlphanum = true ∨ c = '_'

/-- The names of a schema are those in the entries of its registry. -/
theorem Schema.plainNames_iff : s.PlainNames ↔ (s.registry.models.entries.all fun entry =>
    entry.2.fields.all fun f => f.name.toList.all fun c => c.isAlphanum || c = '_') = true := by
  simp only [List.all_eq_true, Bool.or_eq_true, decide_eq_true_eq]
  constructor
  · exact fun h entry hentry f hf => h entry.1 f ⟨entry.2, NameMap.get?_eq_some_iff.mpr hentry, hf⟩
  · rintro h model f ⟨m, hm, hf⟩
    exact h (model, m) (NameMap.get?_eq_some_iff.mp hm) f hf

instance : Decidable s.PlainNames := decidable_of_iff' _ Schema.plainNames_iff

/-- **The path of a field that was found can be written**, if the path that it was found at was
read. -/
theorem printable_of_resolve (hs : s.PlainNames) {p : NamePath} (hp : p.Printable)
    (hF : s.resolve p.segments = .ok F) : NamePath.Printable ⟨F.path, 0⟩ := by
  have hne : p.segments ≠ [] := hp.2.1 ▸ splitPoints_ne_nil _
  have hsplit : splitPoints (dotted F.path) = F.path :=
    (Schema.reaches_of_resolve hF).splitPoints_dotted
  have hresolves := (Schema.resolve_eq_ok_iff hne).mp hF
  rw [hp.2.1] at hresolves
  rcases hresolves.path_eq with hpath | ⟨model, d, hd, hpath⟩
  · rw [hpath]
    exact hp
  · rw [hpath] at hsplit ⊢
    refine NamePath.printable_append hp (Schema.sound_of_declares hd).name_ne_empty (fun c hc =>
      ?_) hsplit
    unfold Lexer.continuesWord
    rcases hs model d hd c hc with h | rfl
    · simp [h]
    · rfl

/-! ## What is read can be written -/

/-- A literal of an exact value is an integer, a text or a truth value. -/
theorem Coerces.isFloat {l : LiteralValue} {v : Scalar} (h : Coerces F l v) (hv : v.Exact) :
    l.isFloat = false := by
  cases h with
  | float _ => exact hv.elim
  | _ => rfl

/-- **A typed integer fits 64 bits.** -/
theorem writable_of_typedNumber? {t : String} {v : Scalar} (h : typedNumber? t = some v)
    (hv : v.Exact) :
    v.Writable := by
  simp only [typedNumber?] at h
  cases hread : readInt64? (Text.trim t.toList) with
  | some n =>
    obtain rfl : v = .int n := by
      rw [hread] at h
      exact (Option.some.inj h).symm
    have hint := (readInt64?_eq_some_iff (Text.trim t.toList) n).mp hread
    show leastInt64 ≤ n ∧ n ≤ greatestInt64
    rw [hint.2]
    exact hint.1.2
  | none =>
    rw [hread] at h
    obtain ⟨x, -, rfl⟩ := Option.map_eq_some_iff.mp h
    exact hv.elim

/-- **An exact value of a literal that was read can be written.** -/
theorem Coerces.writable {l : LiteralValue} {v : Scalar} (h : Coerces F l v) (hl : l.Printable)
    (hv : v.Exact) : v.Writable := by
  cases h with
  | int _ => exact hl
  | float _ => exact hv.elim
  | @number t v _ hread => exact writable_of_typedNumber? hread hv
  | datetime _ _ => exact hv
  | _ => trivial

/-- A list of exact values has no literal that is a number but an integer. -/
theorem isFloat_of_values {items : List Literal} {vs : List Scalar}
    (h : List.Forall₂ (fun l v => Coerces F l.value v) items vs) (hvs : ∀ v ∈ vs, v.Exact) :
    ∀ l ∈ items, l.value.isFloat = false := by
  induction h with
  | nil => exact List.forall_mem_nil _
  | cons hl _ ih =>
    rw [List.forall_mem_cons] at hvs ⊢
    exact ⟨hl.isFloat hvs.1, ih hvs.2⟩

theorem writable_of_values {items : List Literal} {vs : List Scalar}
    (h : List.Forall₂ (fun l v => Coerces F l.value v) items vs)
    (hitems : ∀ l ∈ items, l.value.Printable) (hvs : ∀ v ∈ vs, v.Exact) :
    ∀ v ∈ vs, v.Writable := by
  induction h with
  | nil => exact List.forall_mem_nil _
  | cons hl _ ih =>
    rw [List.forall_mem_cons] at hitems hvs ⊢
    exact ⟨hl.writable hitems.1 hvs.1, ih hitems.2 hvs.2⟩

/-- **An expression that means an exact predicate** has no number but integers. -/
theorem Means.noFloat {e : Expr} {p : Predicate} (h : Means s e p) (hp : p.Exact) : e.NoFloat := by
  unfold Expr.NoFloat
  induction h with
  | and _ _ ihl ihr | or _ _ ihl ihr => exact List.forall_mem_append.mpr ⟨ihl hp.1, ihr hp.2⟩
  | not _ ih => exact ih hp
  | @comparison c F p _ h =>
    refine List.forall_mem_singleton.mpr ?_
    obtain ⟨field, op, value, offset⟩ := c
    cases h with
    | isNull _ | isNotNull _ => exact List.forall_mem_singleton.mpr rfl
    | inEmpty _ _ | notInEmpty _ _ | name _ _ _ _ => exact nofun
    | list _ _ _ hvs => exact isFloat_of_values hvs hp
    | literal _ _ _ hv => exact List.forall_mem_singleton.mpr (hv.isFloat hp)

/-- **An exact predicate of an expression that was read can be written.** -/
theorem Means.writable (hs : s.PlainNames) {e : Expr} {p : Predicate} (h : Means s e p)
    (he : e.Printable) (hp : p.Exact) : p.Writable := by
  induction h with
  | and _ _ ihl ihr | or _ _ ihl ihr =>
    obtain ⟨hl, hr⟩ := List.forall_mem_append.mp he
    exact ⟨ihl hl hp.1, ihr hr hp.2⟩
  | not _ ih => exact ih he hp
  | @comparison c F p hF h =>
    obtain ⟨hfield, hvalue⟩ := List.forall_mem_singleton.mp he
    have hpath := printable_of_resolve hs hfield hF
    obtain ⟨field, op, value, offset⟩ := c
    cases h with
    | isNull _ | isNotNull _ => exact hpath
    | inEmpty _ _ | notInEmpty _ _ => exact hp.elim
    | list _ _ _ hvs => exact ⟨hpath, writable_of_values hvs hvalue hp⟩
    | literal _ _ _ hv => exact ⟨hpath, hv.writable hvalue hp⟩
    | name _ _ hG _ => exact ⟨hpath, printable_of_resolve hs hvalue hG⟩

/-- **A predicate has as many comparisons as the expression that it was read from.** -/
theorem Means.comparisons_expr {e : Expr} {p : Predicate} (h : Means s e p) (hp : p.Exact) :
    p.expr.comparisons.length = e.comparisons.length := by
  induction h with
  | and _ _ ihl ihr | or _ _ ihl ihr =>
    unfold Predicate.expr Expr.comparisons
    rw [List.length_append, List.length_append, ihl hp.1, ihr hp.2]
  | not _ ih => exact ih hp
  | @comparison c F p _ h =>
    obtain ⟨field, op, value, offset⟩ := c
    cases h with
    | inEmpty _ _ | notInEmpty _ _ => exact hp.elim
    | _ => rfl

/-! ## The round trip -/

/-- **The text of a predicate is searched for the predicate.** If a query has an exact predicate
with at most 64 levels and the names of the schema are words, the written form of the predicate
has the same predicate. -/
theorem search_render (hs : s.PlainNames) {q : String} {p : Predicate}
    (h : search s q = .ok (some p)) (hexact : p.Exact) (hlevels : p.levels ≤ 64) :
    search s p.render = .ok (some p) := by
  obtain ⟨e, hparse, hmeans⟩ := search_eq_some_iff.mp h
  have hwritable : p.Writable :=
    hmeans.writable hs (printable_of_parse hparse (hmeans.noFloat hexact)) hexact
  obtain ⟨ts, e', htokens, -, hlegal, hbare, hquery⟩ :=
    Expr.tokenize_render (Predicate.printable_expr hwritable)
  rw [Predicate.render_expr hwritable] at htokens
  have hwrites : Writes p.render p.expr.levels p.expr.comparisons.length e' :=
    ⟨ts, htokens, hlegal, hquery⟩
  obtain ⟨-, -, -, -, -, hterms, -⟩ := exists_query_of_parse hparse
  rw [hwrites.search_eq_some_iff hbare (Predicate.means_expr hwritable hmeans.wellTyped),
    Predicate.levels_expr hexact, hmeans.comparisons_expr hexact]
  exact ⟨hlevels, hterms⟩

/-- The predicate of `author = "Ada" and not (state in ["Open", "shut"] or due <
"2024-1-31 ")` is written with the path to the name of the author, the values of the
choices and the date in full. -/
theorem search_render_author :
    let name := FieldDef.plain "name" .text
    let author := { FieldDef.relation "author" "user" with defaultField := some "name" }
    let state := FieldDef.choice "state" [⟨"open", some "Open"⟩, ⟨"shut", none⟩]
    let due := FieldDef.plain "due" .date
    let s : Schema :=
      ⟨(Registry.empty.withModel "post" ⟨[author, state, due]⟩).withModel "user" ⟨[name]⟩,
      "post", .standard, by decide +kernel, by decide +kernel⟩
    let q := "author = \"Ada\" and not (state in [\"Open\", \"shut\"] or due < \"2024-1-31 \")"
    let p : Predicate := .and
      (.compare ⟨["author", "name"], .text⟩ .equal (.scalar (.text "Ada")))
      (.not (.or
        (.compare ⟨["state"], .choice⟩ .isIn (.list [.text "open", .text "shut"]))
        (.compare ⟨["due"], .date⟩ .less (.scalar (.date ⟨2024, 1, 31, by decide⟩)))))
    search s q = .ok (some p) ∧ s.PlainNames ∧ p.Exact ∧ p.levels ≤ 64
      ∧ search s p.render = .ok (some p) := by
  intro name author state due s q p
  have h : search s q = .ok (some p) := by decide +kernel
  have hs : s.PlainNames := by decide +kernel
  have hstates : Target.Exact (.list [.text "open", .text "shut"]) :=
    List.forall_mem_cons.mpr ⟨trivial, List.forall_mem_singleton.mpr trivial⟩
  have hexact : p.Exact := ⟨trivial, hstates, trivial⟩
  have hlevels : p.levels ≤ 64 := by decide
  exact ⟨h, hs, hexact, hlevels, search_render hs h hexact hlevels⟩

end RecordQuery
