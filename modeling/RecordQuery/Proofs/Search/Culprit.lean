import RecordQuery.Proofs.Query.FirstError
import RecordQuery.Proofs.Query.SourceMap
import RecordQuery.Proofs.Search.Meaning

/-!
# What an error is about

Every error of a search lies inside the query, and at what causes it (`search_error_place`).

A malformed token is reported unless the tokens before it are refused, because the parser reads
at most one token beyond the one it refuses (`Parser.place_of_refusal`). An error in the
meaning is that of the **culprit**, the first comparison that has none when it stands alone. It
lies at a mark of the culprit (`liesAt_of_translateComparison`), and the marks of a comparison
stand at its own tokens.
-/

namespace RecordQuery

open Grammar

/-! ## Errors in the text -/

/-- An empty segment stands not behind the end of its name. -/
theorem Token.EmptyAt.le {t : Token} {place : Nat} (h : t.EmptyAt place) :
    place ≤ t.offset + t.text.length := by
  rcases h.spans with rfl | ⟨-, hlt | ⟨rfl, -⟩⟩
  · exact Nat.le_add_right _ _
  · exact Nat.le_of_lt hlt
  · exact Nat.le_refl _

/-- **Where a refused token is reported**: the item after it is malformed and is reported instead,
or the error does not lie behind the two. Only an empty segment can stand behind the token that is
refused, and then the next item is a token, since it has been read. -/
theorem Parser.place_of_refusal {s : State} {t : Token} {taken : Bool} {e : ParseError}
    {body : List Token} {stop : Except LexError Token} (hstep : s.step t = .refuse taken e)
    (hnext : ∀ x ∈ body.map .ok ++ [stop], Lexer.Follows (.ok t) x) :
    (∃ lex, stop = .error lex ∧ refusal taken e (body.map .ok ++ [stop]) = .lex lex)
      ∨ refusal taken e (body.map .ok ++ [stop]) = .parse e
        ∧ ∃ u, .ok u ∈ .ok t :: (body.map .ok ++ [stop]) ∧ e.offset ≤ u.offset := by
  have hitem : (∃ lex, body = [] ∧ stop = .error lex)
      ∨ ∃ u rest, body.map .ok ++ [stop] = .ok u :: rest := by
    cases body with
    | cons u body => exact Or.inr ⟨u, _, rfl⟩
    | nil =>
      cases stop with
      | ok u => exact Or.inr ⟨u, [], rfl⟩
      | error lex => exact Or.inl ⟨lex, rfl, rfl⟩
  rcases State.taken_of_step_eq_refuse hstep with hplace | ⟨rfl, hempty⟩
  · have hthere : ∃ u, .ok u ∈ .ok t :: (body.map .ok ++ [stop]) ∧ e.offset ≤ u.offset :=
      ⟨t, List.mem_cons_self, Nat.le_of_eq hplace⟩
    cases taken with
    | false => exact Or.inr ⟨rfl, hthere⟩
    | true =>
      obtain ⟨lex, rfl, rfl⟩ | ⟨u, rest, hrest⟩ := hitem
      · exact Or.inl ⟨lex, rfl, rfl⟩
      · exact Or.inr ⟨by rw [hrest]; rfl, hthere⟩
  · obtain ⟨lex, rfl, rfl⟩ | ⟨u, rest, hrest⟩ := hitem
    · exact Or.inl ⟨lex, rfl, rfl⟩
    · have hu : .ok u ∈ body.map .ok ++ [stop] := hrest ▸ List.mem_cons_self
      refine Or.inr ⟨by rw [hrest]; rfl, u, List.mem_cons_of_mem _ hu, ?_⟩
      exact hempty.le.trans ((hnext _ hu).2 t rfl)

/-- **Where a run fails**: it reports the malformed item at the end, or an error that does not lie
behind the last token. -/
theorem Parser.place_of_run_eq_error {s : State} {last : Nat} {body : List Token}
    {stop : Except LexError Token} {err : SyntaxError}
    (hstop : ∀ t, stop = .ok t → t.kind = .endOfInput)
    (hfollows : (body.map Except.ok ++ [stop]).Pairwise Lexer.Follows)
    (h : run s last (body.map .ok ++ [stop]) = .error err) :
    (∃ lex, stop = .error lex ∧ err = .lex lex)
      ∨ ∃ e t, err = .parse e ∧ .ok t ∈ body.map .ok ++ [stop] ∧ e.offset ≤ t.offset := by
  induction body generalizing s last with
  | nil =>
    cases stop with
    | error lex => exact Or.inl ⟨lex, rfl, (Except.error.inj h).symm⟩
    | ok t =>
      have ht : t.kind = .endOfInput := hstop t rfl
      rw [List.map_nil, List.nil_append, run] at h
      split at h
      · cases h
      · exact absurd ‹_› (State.step_endOfInput_ne_next ht)
      · rename_i taken e hstep
        have hparse : refusal taken e [] = .parse e := by cases taken <;> rfl
        obtain rfl := hparse.symm.trans (Except.error.inj h)
        refine Or.inr ⟨e, t, rfl, List.mem_singleton_self _, Nat.le_of_eq ?_⟩
        rcases State.place_of_step_eq_refuse hstep with hplace | hempty
        · exact hplace
        · exact absurd (ht.symm.trans hempty.1) (by decide)
  | cons t body ih =>
    rw [List.map_cons, List.cons_append, run] at h
    rw [List.map_cons, List.cons_append] at hfollows ⊢
    obtain ⟨hnext, hfollows⟩ := List.pairwise_cons.mp hfollows
    split at h
    · cases h
    · refine (ih hfollows h).imp_right ?_
      rintro ⟨e, u, herr, hu, hle⟩
      exact ⟨e, u, herr, List.mem_cons_of_mem _ hu, hle⟩
    · rename_i taken e hstep
      obtain rfl := Except.error.inj h
      refine (Parser.place_of_refusal hstep hnext).imp_right ?_
      rintro ⟨herr, u, hu, hle⟩
      exact ⟨e, u, herr, hu, hle⟩

/-- The items of a query are tokens, and then the end of input or a malformed item. -/
theorem exists_tokenize_eq (q : String) :
    ∃ (body : List Token) (stop : Except LexError Token), tokenize q = body.map .ok ++ [stop]
      ∧ (∀ t ∈ body, t.kind ≠ .endOfInput) ∧ ∀ t, stop = .ok t → t.kind = .endOfInput := by
  obtain ⟨body, hbody, ⟨stop, hstop⟩ | ⟨lex, hlex⟩⟩ := Lexer.tokensFrom_ends 0 q.toList
  · refine ⟨body, .ok (.endOfInput stop), ?_, fun t ht => (hbody t ht).1, fun t ht => ?_⟩
    · rw [tokenize, hstop, List.map_append]
      rfl
    · obtain rfl := Except.ok.inj ht
      rfl
  · refine ⟨body, .error lex, hlex, fun t ht => (hbody t ht).1, fun t ht => ?_⟩
    cases ht

/-- **An error in the text lies at a malformed token, or not behind another one.** -/
theorem place_of_parse_eq_error {q : String} {err : SyntaxError} (h : parse q = .error err) :
    (∃ lex, .error lex ∈ tokenize q ∧ err = .lex lex)
      ∨ ∃ e t, err = .parse e ∧ .ok t ∈ tokenize q ∧ e.offset ≤ t.offset := by
  obtain ⟨body, stop, hq, -, hstop⟩ := exists_tokenize_eq q
  have hfollows : (tokenize q).Pairwise Lexer.Follows := (Lexer.tokensFrom_placed 0 q.toList).1
  rw [hq] at hfollows
  rw [parse, hq] at h
  rw [hq]
  refine (Parser.place_of_run_eq_error hstop hfollows h).imp_left ?_
  rintro ⟨lex, rfl, herr⟩
  exact ⟨lex, List.mem_append_right _ (List.mem_singleton_self _), herr⟩

/-- **A malformed token is an error**: its own, or one in front of it. -/
theorem exists_error_of_malformed {q : String} {body : List Token} {lex : LexError}
    (hq : tokenize q = body.map .ok ++ [.error lex]) :
    ∃ err,
      parse q = .error err ∧ (err = .lex lex ∨ ∃ e, err = .parse e ∧ e.offset < lex.offset) := by
  have hfollows : (tokenize q).Pairwise Lexer.Follows := (Lexer.tokensFrom_placed 0 q.toList).1
  rw [hq] at hfollows
  cases hparse : parse q with
  | ok e =>
    obtain ⟨ts, hts⟩ := exists_tokens_of_parse hparse
    have hmem : .error lex ∈ ts.map Except.ok := by
      rw [← hts, hq]
      exact List.mem_append_right _ (List.mem_singleton_self _)
    obtain ⟨t, -, ht⟩ := List.mem_map.mp hmem
    exact nomatch ht
  | error err =>
    have hstop : ∀ t, (.error lex : Except LexError Token) = .ok t → t.kind = .endOfInput := nofun
    refine ⟨err, rfl, ?_⟩
    rw [parse, hq] at hparse
    rcases Parser.place_of_run_eq_error hstop hfollows hparse with
      ⟨lex', hlex, rfl⟩ | ⟨e, t, rfl, ht, hle⟩
    · obtain rfl := Except.error.inj hlex
      exact Or.inl rfl
    · -- the token is not the malformed one, so it stands in front of it
      have ht : (.ok t : Except LexError Token) ∈ body.map Except.ok := by simpa using ht
      have hbefore := (List.pairwise_append.mp hfollows).2.2 _ ht _ (List.mem_singleton_self _)
      exact Or.inr ⟨e, rfl, hle.trans_lt hbefore.1⟩

/-! ## Errors in the meaning -/

/-- Whether an error lies at an offset. -/
def MeaningError.LiesAt (m : MeaningError) (offset : Nat) : Prop :=
  (QueryError.ofMeaning m).offset? = some offset

section Meaning

variable {s : Schema} {f : Field} {op : Operator} {l : Literal} {m : MeaningError}

theorem liesAt_of_translationError {α : Type} {cause : TranslationError.Cause} {offset : Nat}
    (h : (translationError f offset cause : Except MeaningError α) = .error m) :
    m.LiesAt offset := by
  obtain rfl := Except.error.inj h
  rfl

theorem liesAt_of_resolveAt {p : NamePath} (h : s.resolveAt p = .error m) : m.LiesAt p.offset := by
  unfold Schema.resolveAt at h
  split at h
  · cases h
  · obtain rfl := Except.error.inj h
    rfl

theorem liesAt_of_coerceAt (h : coerceAt f l = .error m) : m.LiesAt l.offset := by
  unfold coerceAt at h
  split at h
  · cases h
  · exact liesAt_of_translationError h

theorem liesAt_of_coerceItem (h : coerceItem f l = .error m) : m.LiesAt l.offset := by
  unfold coerceItem at h
  split at h
  · exact liesAt_of_translationError h
  · exact liesAt_of_coerceAt h

theorem liesAt_of_translateNull {offset : Nat} (h : translateNull f op offset = .error m) :
    m.LiesAt offset := by
  unfold translateNull at h
  split at h
  · cases h
  · split at h
    · cases h
    · exact liesAt_of_translationError h

theorem liesAt_of_translateLiteral (h : translateLiteral f op l = .error m) :
    m.LiesAt l.offset := by
  unfold translateLiteral at h
  split at h
  · exact liesAt_of_translationError h
  · split at h
    · cases h
    · rename_i e hcoerce
      exact Except.error.inj h ▸ liesAt_of_coerceAt hcoerce

theorem liesAt_of_translateName {p : NamePath} (h : translateName s f op p = .error m) :
    m.LiesAt p.offset := by
  unfold translateName at h
  split at h
  · exact liesAt_of_translationError h
  · split at h
    · rename_i e hresolve
      exact Except.error.inj h ▸ liesAt_of_resolveAt hresolve
    · split at h
      · cases h
      · exact liesAt_of_translationError h

/-- What fails for a list fails for one of its items. -/
theorem exists_mem_of_mapM_eq_error {α β ε : Type} {g : α → Except ε β} {as : List α} {e : ε}
    (h : as.mapM g = .error e) : ∃ a ∈ as, g a = .error e := by
  induction as with
  | nil => exact nomatch h
  | cons a as ih =>
    rw [List.mapM_cons] at h
    cases ha : g a with
    | error e' =>
      rw [ha] at h
      obtain rfl : e' = e := Except.error.inj h
      exact ⟨a, List.mem_cons_self, ha⟩
    | ok b =>
      rw [ha] at h
      cases has : as.mapM g with
      | error e' =>
        rw [has] at h
        obtain rfl : e' = e := Except.error.inj h
        obtain ⟨a', ha', hg⟩ := ih has
        exact ⟨a', List.mem_cons_of_mem _ ha', hg⟩
      | ok bs =>
        rw [has] at h
        exact nomatch h

theorem liesAt_of_translateList {items : List Literal} {offset : Nat}
    (h : translateList f op items offset = .error m) :
    m.LiesAt offset ∨ ∃ l ∈ items, m.LiesAt l.offset := by
  unfold translateList at h
  split at h
  · exact Or.inl (liesAt_of_translationError h)
  · split at h
    · cases h
    · split at h
      · cases h
      · rename_i e hitems
        obtain rfl := Except.error.inj h
        obtain ⟨l, hl, hitem⟩ := exists_mem_of_mapM_eq_error hitems
        exact Or.inr ⟨l, hl, liesAt_of_coerceItem hitem⟩

/-- **The error of an operand lies at a mark of its comparison**: at the field, at the
operand or at an item. -/
theorem liesAt_of_translateOperand {c : Comparison} (h : translateOperand s f c = .error m) :
    ∃ k ∈ (Expr.comparison c).marks, m.LiesAt k.offset := by
  have hoperand : ∀ {v : Operand}, c.value = v → m.LiesAt v.offset →
      ∃ k ∈ (Expr.comparison c).marks, m.LiesAt k.offset := by
    rintro _ rfl hm
    exact ⟨_, List.mem_cons_of_mem _ List.mem_cons_self, hm⟩
  unfold translateOperand at h
  split at h
  · rename_i offset hvalue
    exact hoperand hvalue (liesAt_of_translateNull h)
  · split at h
    · exact ⟨_, List.mem_cons_self, liesAt_of_translationError h⟩
    · split at h
      · rename_i items offset hvalue
        rcases liesAt_of_translateList h with hm | ⟨l, hl, hm⟩
        · exact hoperand hvalue hm
        · have hitem : l.mark ∈ c.value.marks := by
            rw [hvalue]
            exact List.mem_cons_of_mem _ (List.mem_map_of_mem hl)
          exact ⟨l.mark, List.mem_cons_of_mem _ hitem, hm⟩
      · rename_i l hvalue
        exact hoperand hvalue (liesAt_of_translateLiteral h)
      · rename_i p hvalue
        exact hoperand hvalue (liesAt_of_translateName h)

/-- **The error of a comparison lies at one of its marks.** -/
theorem liesAt_of_translateComparison {c : Comparison} (hc : c.offset = c.field.offset)
    (h : translateComparison s c = .error m) :
    ∃ k ∈ (Expr.comparison c).marks, m.LiesAt k.offset := by
  unfold translateComparison at h
  split at h
  · rename_i e hresolve
    refine ⟨_, List.mem_cons_self, ?_⟩
    exact Except.error.inj h ▸ hc ▸ liesAt_of_resolveAt hresolve
  · exact liesAt_of_translateOperand h

/-! ## Culprits -/

/-- **The culprit of an expression**: the comparison that fails with an error when it stands
alone, while every comparison to its left has a predicate. -/
structure Expr.Culprit (s : Schema) (e : Expr) (c : Comparison) (m : MeaningError) : Prop where
  /-- It is a comparison of the expression. -/
  mem : c ∈ e.comparisons
  /-- Alone it has the error. -/
  fails : translate s (.comparison c) = .error m
  /-- What stands to its left has a predicate. -/
  first : ∀ b ∈ e.comparisons, b.offset < c.offset → ∃ p, translate s (.comparison b) = .ok p

/-- The comparisons of an expression that has a predicate have one. -/
theorem exists_translate_of_mem {e : Expr} {p : Predicate} (h : translate s e = .ok p) :
    ∀ c ∈ e.comparisons, ∃ p, translate s (.comparison c) = .ok p := by
  induction e generalizing p with
  | logical op left right ihl ihr =>
    rw [translate] at h
    cases hl : translate s left with
    | error m => simp [hl] at h
    | ok a =>
      cases hr : translate s right with
      | error m => simp [hl, hr] at h
      | ok b => exact List.forall_mem_append.mpr ⟨ihl hl, ihr hr⟩
  | not operand offset ih =>
    rw [translate] at h
    cases hoperand : translate s operand with
    | error m => simp [hoperand] at h
    | ok a => exact ih hoperand
  | comparison c =>
    rintro b hb
    obtain rfl := List.mem_singleton.mp hb
    exact ⟨p, h⟩

/-- **An expression fails at the first comparison that fails.** The induction is on the
expression, whose left side is looked at first. -/
theorem exists_first_of_translate_eq_error {e : Expr} (h : translate s e = .error m) :
    ∃ before c after, e.comparisons = before ++ c :: after ∧ translate s (.comparison c) = .error m
      ∧ ∀ b ∈ before, ∃ p, translate s (.comparison b) = .ok p := by
  induction e with
  | logical op left right ihl ihr =>
    rw [translate] at h
    cases hl : translate s left with
    | error e =>
      simp only [hl] at h
      obtain ⟨before, c, after, hcut, hc, hbefore⟩ := ihl (hl.trans h)
      refine ⟨before, c, after ++ right.comparisons, ?_, hc, hbefore⟩
      rw [Expr.comparisons, hcut, List.append_assoc, List.cons_append]
    | ok a =>
      cases hr : translate s right with
      | ok b => simp [hl, hr] at h
      | error e =>
        simp only [hl, hr] at h
        obtain ⟨before, c, after, hcut, hc, hbefore⟩ := ihr (hr.trans h)
        refine ⟨left.comparisons ++ before, c, after, ?_, hc, ?_⟩
        · rw [Expr.comparisons, hcut, List.append_assoc]
        · exact List.forall_mem_append.mpr ⟨exists_translate_of_mem hl, hbefore⟩
  | not operand offset ih =>
    rw [translate] at h
    cases hoperand : translate s operand with
    | error e =>
      simp only [hoperand] at h
      exact ih (hoperand.trans h)
    | ok a => simp [hoperand] at h
  | comparison c => exact ⟨[], c, [], rfl, h, fun b hb => absurd hb List.not_mem_nil⟩

/-- **An expression that has no predicate has a culprit**, if its marks increase. -/
theorem exists_culprit {e : Expr} (hmarks : e.marks.Pairwise fun k k' => k.offset < k'.offset)
    (h : translate s e = .error m) : ∃ c, e.Culprit s c m := by
  obtain ⟨before, c, after, hcut, hc, hbefore⟩ := exists_first_of_translate_eq_error h
  have hincrease : e.comparisons.Pairwise fun c c' => c.offset < c'.offset :=
    (Expr.pairwise_comparisons hmarks).imp fun hlt => hlt _ List.mem_cons_self _ List.mem_cons_self
  rw [hcut] at hincrease
  have hafter := (List.pairwise_cons.mp (List.pairwise_append.mp hincrease).2.1).1
  refine ⟨c, by simp [hcut], hc, fun b hb hlt => ?_⟩
  rw [hcut] at hb
  rcases List.mem_append.mp hb with hb | hb
  · exact hbefore b hb
  · rcases List.mem_cons.mp hb with rfl | hb
    · exact absurd hlt (Nat.lt_irrefl _)
    · exact absurd hlt (Nat.lt_asymm (hafter b hb))

end Meaning

/-- **Whether an offset is in the range of a comparison**: from its field up to the token after
it. -/
def Comparison.Covers (q : String) (c : Comparison) (offset : Nat) : Prop :=
  ∃ front own next rest, tokenize q = (front ++ own ++ next :: rest).map .ok
    ∧ ComparisonAt (own ++ next :: rest) c (next :: rest) ∧ c.field.offset ≤ offset
      ∧ offset < next.offset

/-- **The marks of a comparison are in its range**, because they stand at its own tokens. -/
theorem covers_of_mem_marks {q : String} {e : Expr} (h : parse q = .ok e) {c : Comparison}
    (hc : c ∈ e.comparisons) {k : Mark} (hk : k ∈ (Expr.comparison c).marks) :
    c.Covers q k.offset := by
  obtain ⟨ts, n, hts, ⟨stop, hstop, hd⟩, -⟩ := exists_query_of_parse h
  obtain ⟨front, own, vs, rfl, hat, hsuffix⟩ :=
    (hd.exists_comparisonAt c hc).resolve_left List.not_mem_nil
  have hfollows := pairwise_follows_of_tokenize hts
  rw [List.append_assoc] at hfollows
  have hfollows := (List.pairwise_append.mp hfollows).2.1
  have hmarks : MarksAmong (own ++ vs) vs [] (Expr.comparison c).marks := hat.marks
  cases vs with
  | nil => exact absurd hsuffix.length_le (by simp)
  | cons next rest =>
    refine ⟨front, own, next, rest, hts, hat, ?_, ?_⟩
    · rw [← hat.offset_eq]
      have hincrease := List.pairwise_cons.mp (hmarks.pairwise hfollows)
      rcases List.mem_cons.mp hk with rfl | hk
      · exact Nat.le_refl _
      · exact Nat.le_of_lt (hincrease.1 k hk)
    · obtain ⟨xs, hxs, htokens⟩ := hmarks.exists_token
      obtain rfl := List.append_cancel_right hxs
      obtain ⟨t, ht, hmark⟩ := htokens k hk
      rw [Token.offset_of_mark? hmark]
      exact ((List.pairwise_append.mp hfollows).2.2 t ht next List.mem_cons_self).1

/-! ## Errors of a search -/

/-- No item of a query stands behind its end. -/
theorem itemOffset_le_length {q : String} {x : Except LexError Token} (hx : x ∈ tokenize q) :
    Lexer.itemOffset x ≤ q.length := by
  have hle := ((Lexer.tokensFrom_placed 0 q.toList).2 x hx).2
  rwa [Nat.zero_add, String.length_toList] at hle

/-- **A query that is read and has no predicate** is refused with the error of its culprit, which
lies in the range of the culprit. -/
theorem search_of_translate_eq_error {s : Schema} {q : String} {e : Expr} {m : MeaningError}
    (he : parse q = .ok e) (hm : translate s e = .error m) :
    search s q = .error (.ofMeaning m) ∧ ∃ c offset, e.Culprit s c m ∧ m.LiesAt offset
      ∧ c.Covers q offset := by
  obtain ⟨ts, n, hts, ⟨stop, -, hd⟩, -⟩ := exists_query_of_parse he
  have hmarks : MarksAmong ts [stop] [] e.marks := hd.marks
  obtain ⟨c, hc⟩ := exists_culprit (hmarks.pairwise (pairwise_follows_of_tokenize hts)) hm
  obtain ⟨_, _, _, -, hat, -⟩ := (hd.exists_comparisonAt c hc.mem).resolve_left List.not_mem_nil
  obtain ⟨k, hk, hlies⟩ := liesAt_of_translateComparison hat.offset_eq hc.fails
  have hsearch : search s q = .error (.ofMeaning m) := by
    rw [search_of_parse he, hm]
    rfl
  exact ⟨hsearch, c, k.offset, hc, hlies, covers_of_mem_marks he hc.mem hk⟩

/-- **A query with a malformed token** is refused, for this token or for something in front of
it. -/
theorem search_of_malformed (s : Schema) {q : String} {body : List Token} {lex : LexError}
    (hq : tokenize q = body.map .ok ++ [.error lex]) :
    search s q = .error (.lex lex)
      ∨ ∃ e, search s q = .error (.parse e) ∧ e.offset < lex.offset := by
  obtain ⟨err, hparse, herr⟩ := exists_error_of_malformed hq
  have hsearch : search s q = .error (.ofSyntax err) := by
    refine search_of_parse_eq_error (Bool.eq_false_iff.mpr fun hblank => ?_) hparse
    -- a blank text has no malformed token
    have hmem : .error lex ∈ tokenize q := hq ▸ List.mem_append_right _ (List.mem_singleton_self _)
    rw [tokenize_of_isBlankQuery hblank] at hmem
    exact nomatch List.mem_singleton.mp hmem
  rcases herr with rfl | ⟨e, rfl, hlt⟩
  · exact Or.inl hsearch
  · exact Or.inr ⟨e, hsearch, hlt⟩

/-- **Every error of a search lies inside the query.** -/
theorem offset_le_length_of_search {s : Schema} {q : String} {err : QueryError}
    (h : search s q = .error err) :
    ∃ offset, err.offset? = some offset ∧ offset ≤ q.length := by
  cases hparse : parse q with
  | error syn =>
    have hsearch : search s q = .error (.ofSyntax syn) := by
      refine search_of_parse_eq_error (Bool.eq_false_iff.mpr fun hq => ?_) hparse
      rw [search_eq_none_iff.mpr hq] at h
      exact nomatch h
    obtain rfl := Except.error.inj (h.symm.trans hsearch)
    rcases place_of_parse_eq_error hparse with ⟨lex, hmem, rfl⟩ | ⟨e, t, rfl, hmem, hle⟩
    · exact ⟨lex.offset, rfl, itemOffset_le_length hmem⟩
    · exact ⟨e.offset, rfl, hle.trans (itemOffset_le_length hmem)⟩
  | ok e =>
    cases hm : translate s e with
    | ok p =>
      have hsearch := search_eq_some_iff.mpr ⟨e, hparse, translate_eq_ok_iff.mp hm⟩
      exact nomatch h.symm.trans hsearch
    | error m =>
      obtain ⟨hsearch, c, offset, -, hlies, front, own, next, rest, hts, -, -, hlt⟩ :=
        search_of_translate_eq_error hparse hm
      obtain rfl := Except.error.inj (h.symm.trans hsearch)
      have hnext : .ok next ∈ tokenize q := hts ▸ List.mem_map_of_mem (by simp)
      exact ⟨offset, hlies, Nat.le_of_lt (hlt.trans_le (itemOffset_le_length hnext))⟩

/-- **An error lies inside the query and at what causes it.** A malformed token is reported as
such, unless an error in front of it is; a query that has a malformed token is never accepted.
A query that is read and has no predicate is refused with the error of its culprit, in the
range of the culprit. -/
theorem search_error_place (s : Schema) (q : String) :
    (∀ err, search s q = .error err → ∃ offset, err.offset? = some offset ∧ offset ≤ q.length)
      ∧ (∀ (body : List Token) (lex : LexError), tokenize q = body.map .ok ++ [.error lex] →
        search s q = .error (.lex lex)
          ∨ ∃ e, search s q = .error (.parse e) ∧ e.offset < lex.offset)
      ∧ ∀ e m, parse q = .ok e → translate s e = .error m →
        search s q = .error (.ofMeaning m)
          ∧ ∃ c offset, e.Culprit s c m ∧ m.LiesAt offset ∧ c.Covers q offset := by
  refine ⟨fun err herr => ?_, fun body lex hq => ?_, fun e m he hm => ?_⟩
  · exact offset_le_length_of_search herr
  · exact search_of_malformed s hq
  · exact search_of_translate_eq_error he hm

/-- In `title = 'a' and (n in [1, 'x'] or nope = 1)` two comparisons have no predicate, and
the error is that of the first. In `) 'x` the string has no end, but the parenthesis in
front of it is refused. -/
theorem search_error_place_item :
    let registry := Registry.empty.withModel "post" ⟨[.plain "title" .text, .plain "n" .number]⟩
    let s : Schema := ⟨registry, "post", .standard, by decide +kernel, by decide +kernel⟩
    let q := "title = 'a' and (n in [1, 'x'] or nope = 1)"
    let c : Comparison := ⟨⟨["n"], 17⟩, .isIn, .list [⟨.int 1, 23⟩, ⟨.string "x", 26⟩] 22, 17⟩
    let e : Expr :=
      .logical .and (.comparison ⟨⟨["title"], 0⟩, .equal, .literal ⟨.string "a", 8⟩, 0⟩)
      (.logical .or (.comparison c)
        (.comparison ⟨⟨["nope"], 34⟩, .equal, .literal ⟨.int 1, 41⟩, 34⟩))
    let m : MeaningError := .translation ⟨.mismatch .number "n" (.string "x"), "n", 26⟩
    let lex : LexError := ⟨2, .unterminated⟩
    (parse q = .ok e ∧ translate s e = .error m ∧ search s q = .error (.ofMeaning m)
      ∧ ∃ c offset, e.Culprit s c m ∧ m.LiesAt offset ∧ c.Covers q offset)
      ∧ (∃ offset, (QueryError.ofMeaning m).offset? = some offset ∧ offset ≤ q.length)
      ∧ tokenize ") 'x" = [⟨.rightParen, ")", 0⟩].map .ok ++ [.error lex]
      ∧ (search s ") 'x" = .error (.lex lex)
        ∨ ∃ e, search s ") 'x" = .error (.parse e) ∧ e.offset < 2) := by
  intro registry s q c e m lex
  have hparse : parse q = .ok e := by decide +kernel
  have hm : translate s e = .error m := by decide +kernel
  have hlex : tokenize ") 'x" = [⟨.rightParen, ")", 0⟩].map .ok ++ [.error lex] := by decide +kernel
  obtain ⟨hplace, -, hculprit⟩ := search_error_place s q
  obtain ⟨hsearch, hc⟩ := hculprit e m hparse hm
  exact ⟨⟨hparse, hm, hsearch, hc⟩, hplace _ hsearch, hlex,
    (search_error_place s ") 'x").2.1 _ _ hlex⟩

end RecordQuery
