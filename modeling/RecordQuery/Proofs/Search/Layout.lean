import RecordQuery.Proofs.Query.Layout
import RecordQuery.Proofs.Search.Meaning

/-!
# Searching whatever the layout

A search does not look at the layout of a query (`search_relaid`). A text that is laid out anew
is read as the same tree but for offsets, or both are refused. The meaning of a tree has
nothing to do with the offsets in it, and neither has an error in the meaning, but for its own
offset (`translate_bare`).
-/

namespace RecordQuery

/-! ## Errors without offsets -/

/-- The error with offset zero. -/
def MeaningError.bare : MeaningError → MeaningError
  | .schema e => .schema (e.atOffset 0)
  | .translation e => .translation { e with offset := 0 }

section Bare

variable {s : Schema} {f : Field} {op : Operator}

theorem resolveAt_bare (p : NamePath) :
    s.resolveAt p.bare = (s.resolveAt p).mapError MeaningError.bare := by
  have hsegments : p.bare.segments = p.segments := rfl
  unfold Schema.resolveAt
  rw [hsegments]
  cases s.resolve p.segments <;> rfl

theorem coerceAt_bare (l : Literal) :
    coerceAt f ⟨l.value, 0⟩ = (coerceAt f l).mapError MeaningError.bare := by
  unfold coerceAt
  cases coerce f l.value <;> rfl

theorem coerceItem_bare (l : Literal) :
    coerceItem f ⟨l.value, 0⟩ = (coerceItem f l).mapError MeaningError.bare := by
  unfold coerceItem
  split
  · rfl
  · exact coerceAt_bare l

theorem mapM_coerceItem_bare (items : List Literal) :
    (items.map fun l => (⟨l.value, 0⟩ : Literal)).mapM (coerceItem f)
      = (items.mapM (coerceItem f)).mapError MeaningError.bare := by
  induction items with
  | nil => rfl
  | cons l items ih =>
    rw [List.map_cons, List.mapM_cons, List.mapM_cons, coerceItem_bare, ih]
    cases coerceItem f l with
    | error e => rfl
    | ok v => cases items.mapM (coerceItem f) <;> rfl

theorem translateNull_bare (offset : Nat) :
    translateNull f op 0 = (translateNull f op offset).mapError MeaningError.bare := by
  unfold translateNull
  split
  · rfl
  · split <;> rfl

theorem translateList_bare (items : List Literal) (offset : Nat) :
    translateList f op (items.map fun l => ⟨l.value, 0⟩) 0
      = (translateList f op items offset).mapError MeaningError.bare := by
  unfold translateList
  split
  · rfl
  · simp only [List.map_eq_nil_iff]
    split
    · rfl
    · rw [mapM_coerceItem_bare]
      cases items.mapM (coerceItem f) <;> rfl

theorem translateLiteral_bare (l : Literal) :
    translateLiteral f op ⟨l.value, 0⟩ = (translateLiteral f op l).mapError MeaningError.bare := by
  unfold translateLiteral
  split
  · rfl
  · rw [coerceAt_bare]
    cases coerceAt f l <;> rfl

theorem translateName_bare (p : NamePath) :
    translateName s f op p.bare = (translateName s f op p).mapError MeaningError.bare := by
  unfold translateName
  split
  · rfl
  · rw [resolveAt_bare]
    cases s.resolveAt p with
    | error e => rfl
    | ok other =>
      show (if _ then _ else _) = Except.mapError _ (if _ then _ else _)
      split <;> rfl

theorem translateOperand_bare (c : Comparison) :
    translateOperand s f c.bare = (translateOperand s f c).mapError MeaningError.bare := by
  -- what is not null needs an operator of the type first
  have hneeds : ∀ {offset : Nat} {x x' : Except MeaningError Predicate},
      x' = x.mapError MeaningError.bare →
      (if c.op ∉ f.type.operators then translationError f 0 (.unsupported c.op f.type f.dotted)
          else x')
        = (if c.op ∉ f.type.operators then
            translationError f offset (.unsupported c.op f.type f.dotted)
          else x).mapError MeaningError.bare := by
    rintro offset x _ rfl
    split <;> rfl
  obtain ⟨field, op, v, offset⟩ := c
  cases v with
  | literal l =>
    obtain ⟨value, place⟩ := l
    cases value with
    | null => exact translateNull_bare place
    | _ => exact hneeds (translateLiteral_bare _)
  | list items place => exact hneeds (translateList_bare items place)
  | name p => exact hneeds (translateName_bare p)

/-- **The error of a tree is that of the bare tree**, but for its offset. -/
theorem translate_bare (e : Expr) :
    translate s e.bare = (translate s e).mapError MeaningError.bare := by
  induction e with
  | logical op left right ihl ihr =>
    rw [Expr.bare, translate, translate, ihl, ihr]
    cases translate s left with
    | error m => rfl
    | ok p => cases translate s right <;> rfl
  | not operand offset ih =>
    rw [Expr.bare, translate, translate, ih]
    cases translate s operand <;> rfl
  | comparison c =>
    show translateComparison s c.bare = (translateComparison s c).mapError MeaningError.bare
    unfold translateComparison
    rw [show c.bare.field = c.field.bare from rfl, resolveAt_bare]
    cases s.resolveAt c.field with
    | error m => rfl
    | ok f => exact translateOperand_bare c

end Bare

/-! ## Searches -/

/-- **The kinds of errors** of a search. -/
inductive QueryError.Kind where
  /-- A malformed token. -/
  | lex
  /-- A token out of place. -/
  | parse
  /-- A path that does not resolve. -/
  | schema
  /-- A comparison that does not fit its field. -/
  | translation
  deriving DecidableEq

/-- The kind of an error. -/
def QueryError.kind : QueryError → QueryError.Kind
  | .lex _ => .lex
  | .parse _ => .parse
  | .schema _ => .schema
  | .translation _ => .translation

/-- Errors that differ in offsets alone are of one kind. -/
theorem kind_of_bare_eq {m m' : MeaningError} (h : m'.bare = m.bare) :
    (QueryError.ofMeaning m').kind = (QueryError.ofMeaning m).kind := by
  cases m <;> cases m' <;> first | rfl | cases h

/-- A search for tokens that are no query has an error of their order, unless the query is blank. -/
theorem kind_of_parse_eq_error {s : Schema} {q : String} {ts : List Token} {err : SyntaxError}
    (hts : tokenize q = ts.map .ok) (h : parse q = .error err) :
    (search s q).mapError QueryError.kind = if isBlankQuery q then .ok none else .error .parse := by
  have hrun := h
  rw [parse, hts] at hrun
  obtain ⟨e, rfl⟩ := Parser.exists_parse_of_run_eq_error hrun
  cases hq : isBlankQuery q with
  | true =>
    rw [search_eq_none_iff.mpr hq]
    rfl
  | false =>
    rw [search_of_parse_eq_error hq h]
    rfl

/-- Trees that differ in offsets alone have the same meaning, or errors of the same kind. -/
theorem kind_of_trees_bare_eq {s : Schema} {e e' : Expr} (h : e'.bare = e.bare) :
    (((translate s e').map some).mapError QueryError.ofMeaning).mapError QueryError.kind
      = (((translate s e).map some).mapError QueryError.ofMeaning).mapError QueryError.kind := by
  have hbare : (translate s e').mapError MeaningError.bare
      = (translate s e).mapError MeaningError.bare := by
    rw [← translate_bare, ← translate_bare, h]
  cases hm : translate s e with
  | error m =>
    cases hm' : translate s e' with
    | error m' =>
      rw [hm, hm'] at hbare
      exact congrArg Except.error (kind_of_bare_eq (Except.error.inj hbare))
    | ok p => simp [hm, hm', Except.mapError] at hbare
  | ok p =>
    cases hm' : translate s e' with
    | error m' => simp [hm, hm', Except.mapError] at hbare
    | ok p' =>
      rw [hm, hm'] at hbare
      rw [Except.ok.inj hbare]

/-- **The layout of a query carries no meaning.** If a query is cut into tokens, it is read
exactly if it is read in any other layout, and as the same tree but for offsets; and a search for
it has the same result in any other layout, or an error of the same kind. -/
theorem search_relaid {q q' : String} (h : Lexer.Relaid q.toList q'.toList) :
    ((∃ e, parse q' = .ok e) ↔ ∃ e, parse q = .ok e)
      ∧ (∀ e e', parse q = .ok e → parse q' = .ok e' → e'.bare = e.bare)
      ∧ ∀ s, (search s q').mapError QueryError.kind = (search s q).mapError QueryError.kind := by
  obtain ⟨ts, ts', hts, hts', hsenses⟩ := h.tokens 0 0
  have hparse : ∀ e, parse q = .ok e → ∃ e', parse q' = .ok e' ∧ e'.bare = e.bare := fun e he =>
    exists_parse_of_senses hts hts' hsenses he
  have hparse' : ∀ e', parse q' = .ok e' → ∃ e, parse q = .ok e ∧ e.bare = e'.bare := fun e' he' =>
    exists_parse_of_senses hts' hts hsenses.symm he'
  refine ⟨⟨fun ⟨e', he'⟩ => ?_, fun ⟨e, he⟩ => ?_⟩, fun e e' he he' => ?_, fun s => ?_⟩
  · obtain ⟨e, he, -⟩ := hparse' e' he'
    exact ⟨e, he⟩
  · obtain ⟨e', he', -⟩ := hparse e he
    exact ⟨e', he'⟩
  · obtain ⟨x, hx, hbare⟩ := hparse e he
    rwa [Except.ok.inj (he'.symm.trans hx)]
  · cases he : parse q with
    | ok e =>
      obtain ⟨e', he', hbare⟩ := hparse e he
      rw [search_of_parse he, search_of_parse he', kind_of_trees_bare_eq hbare]
    | error err =>
      cases he' : parse q' with
      | ok e' =>
        obtain ⟨e, heq, -⟩ := hparse' e' he'
        exact nomatch he.symm.trans heq
      | error err' =>
        have hblank : isBlankQuery q' = isBlankQuery q := by
          rw [Bool.eq_iff_iff, isBlankQuery, isBlankQuery, List.all_eq_true, List.all_eq_true]
          exact h.forall_isBlank_iff
        rw [kind_of_parse_eq_error hts he, kind_of_parse_eq_error hts' he', hblank]

/-- Between the tokens of `tag='a'and n>1e3or NOT n in[2]` stand four blanks; with more of them
and other keywords it is the same query. -/
theorem search_relaid_blanks :
    let registry := Registry.empty.withModel "note" ⟨[.plain "tag" .text, .plain "n" .number]⟩
    let s : Schema := ⟨registry, "note", .standard, by decide +kernel, by decide +kernel⟩
    let q := "tag='a'and n>1e3or NOT n in[2]"
    let q' := " tag = 'a' AND\tn> 1e3 OR\n not  n IN [ 2 ] "
    Lexer.Relaid q.toList q'.toList
      ∧ (∃ e e', parse q = .ok e ∧ parse q' = .ok e' ∧ e'.bare = e.bare)
      ∧ (search s q).toOption.isSome = true
      ∧ (search s q').mapError QueryError.kind = (search s q).mapError QueryError.kind := by
  intro registry s q q'
  have h : Lexer.Relaid q.toList q'.toList := by decide +kernel
  have hread : (parse q).toOption.isSome = true := by decide +kernel
  have hfound : (search s q).toOption.isSome = true := by decide +kernel
  obtain ⟨hparse, hbare, hsearch⟩ := search_relaid h
  obtain ⟨e, he⟩ : ∃ e, parse q = .ok e := by
    cases he : parse q with
    | ok e => exact ⟨e, rfl⟩
    | error err =>
      rw [he] at hread
      cases hread
  obtain ⟨e', he'⟩ := hparse.mpr ⟨e, he⟩
  exact ⟨h, ⟨e, e', he, he', hbare e e' he he'⟩, hfound, hsearch s⟩

end RecordQuery
