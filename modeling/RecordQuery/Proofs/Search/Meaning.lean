import RecordQuery.Proofs.Predicate.Typing
import RecordQuery.Proofs.Query.Composition
import RecordQuery.Search

/-!
# What a query is searched for

A search reads a text and takes the meaning of the tree (`search_eq_some_iff`). The meaning has
nothing to do with where the parts of the tree stand in the text (`Means.of_bare_eq`), so a text
that writes a tree is searched for what any tree means that is the same but for offsets, as long
as the text keeps the limits (`Writes.search_eq_some_iff`).
-/

namespace RecordQuery

variable {s : Schema} {p : Predicate}

/-! ## Trees that differ in offsets -/

theorem exists_literal_of_bare_eq {v : Operand} {l : Literal}
    (h : v.bare = (Operand.literal l).bare) :
    ∃ offset, v = .literal ⟨l.value, offset⟩ := by
  cases v with
  | literal l' =>
    have hliteral : (⟨l'.value, 0⟩ : Literal) = ⟨l.value, 0⟩ := Operand.literal.inj h
    have hvalue : l'.value = l.value := (Literal.mk.inj hliteral).1
    exact ⟨l'.offset, hvalue ▸ rfl⟩
  | list _ _ => exact nomatch h
  | name _ => exact nomatch h

theorem exists_list_of_bare_eq {v : Operand} {items : List Literal} {offset : Nat}
    (h : v.bare = (Operand.list items offset).bare) :
    ∃ items' offset',
      v = .list items' offset' ∧ items'.map Literal.value = items.map Literal.value := by
  cases v with
  | literal _ => exact nomatch h
  | list items' offset' =>
    refine ⟨items', offset', rfl, ?_⟩
    have hvalues := congrArg (List.map Literal.value) (Operand.list.inj h).1
    simpa only [List.map_map, Function.comp_def] using hvalues
  | name _ => exact nomatch h

theorem exists_name_of_bare_eq {v : Operand} {path : NamePath}
    (h : v.bare = (Operand.name path).bare) :
    ∃ offset, v = .name ⟨path.segments, offset⟩ := by
  cases v with
  | literal _ => exact nomatch h
  | list _ _ => exact nomatch h
  | name path' =>
    have hpath : path'.bare = path.bare := Operand.name.inj h
    have hsegments : path'.segments = path.segments := (NamePath.mk.inj hpath).1
    exact ⟨path'.offset, hsegments ▸ rfl⟩

/-- The values of literals are a matter of their values alone. -/
theorem forall₂_coerces_of_values_eq {F : Field} {items items' : List Literal} {vs : List Scalar}
    (h : List.Forall₂ (fun l v => Coerces F l.value v) items vs)
    (hvalues : items'.map Literal.value = items.map Literal.value) :
    List.Forall₂ (fun l v => Coerces F l.value v) items' vs := by
  have hmap : ∀ items : List Literal, List.Forall₂ (fun l v => Coerces F l.value v) items vs
      ↔ List.Forall₂ (Coerces F) (items.map Literal.value) vs :=
      fun _ => List.forall₂_map_left_iff.symm
  rw [hmap] at h ⊢
  rwa [hvalues]

/-- **A comparison means the same wherever its operand stands.** -/
theorem Compares.of_bare_eq {F : Field} {op : Operator} {v v' : Operand} (h : Compares s F op v p)
    (hbare : v'.bare = v.bare) : Compares s F op v' p := by
  have hnil : ∀ {items : List Literal},
      items.map Literal.value = ([] : List Literal).map Literal.value →
      items = [] := List.map_eq_nil_iff.mp
  cases h with
  | isNull hop =>
    obtain ⟨offset, rfl⟩ := exists_literal_of_bare_eq hbare
    exact .isNull hop
  | isNotNull hop =>
    obtain ⟨offset, rfl⟩ := exists_literal_of_bare_eq hbare
    exact .isNotNull hop
  | inEmpty hop hin =>
    obtain ⟨items, offset, rfl, hvalues⟩ := exists_list_of_bare_eq hbare
    obtain rfl := hnil hvalues
    exact .inEmpty hop hin
  | notInEmpty hop hin =>
    obtain ⟨items, offset, rfl, hvalues⟩ := exists_list_of_bare_eq hbare
    obtain rfl := hnil hvalues
    exact .notInEmpty hop hin
  | list hop hin hne hvs =>
    obtain ⟨items, offset, rfl, hvalues⟩ := exists_list_of_bare_eq hbare
    refine .list hop hin ?_ (forall₂_coerces_of_values_eq hvs hvalues)
    rintro rfl
    exact hne (List.map_eq_nil_iff.mp hvalues.symm)
  | literal hnull hop hin hv =>
    obtain ⟨offset, rfl⟩ := exists_literal_of_bare_eq hbare
    exact .literal hnull hop hin hv
  | name hop hin hG ht =>
    obtain ⟨offset, rfl⟩ := exists_name_of_bare_eq hbare
    exact .name hop hin hG ht

/-- **Trees that differ in offsets alone mean the same.** -/
theorem Means.of_bare_eq {e e' : Expr} (h : Means s e p) (hbare : e'.bare = e.bare) :
    Means s e' p := by
  have hlogical : ∀ {e' : Expr} {op : Connective} {left right : Expr},
      e'.bare = (Expr.logical op left right).bare →
        ∃ left' right', e' = .logical op left' right' ∧ left'.bare = left.bare
          ∧ right'.bare = right.bare := by
    intro e' op left right h
    cases e' with
    | logical op' left' right' =>
      obtain ⟨rfl, hl, hr⟩ := Expr.logical.inj h
      exact ⟨left', right', rfl, hl, hr⟩
    | not _ _ => exact nomatch h
    | comparison _ => exact nomatch h
  induction h generalizing e' with
  | and _ _ ihl ihr =>
    obtain ⟨left', right', rfl, hl, hr⟩ := hlogical hbare
    exact .and (ihl hl) (ihr hr)
  | or _ _ ihl ihr =>
    obtain ⟨left', right', rfl, hl, hr⟩ := hlogical hbare
    exact .or (ihl hl) (ihr hr)
  | not _ ih =>
    cases e' with
    | logical _ _ _ => exact nomatch hbare
    | not operand offset => exact .not (ih (Expr.not.inj hbare).1)
    | comparison _ => exact nomatch hbare
  | comparison hF h =>
    cases e' with
    | logical _ _ _ => exact nomatch hbare
    | not _ _ => exact nomatch hbare
    | comparison c' =>
      obtain ⟨hfield, hop, hvalue, -⟩ := Comparison.mk.inj (Expr.comparison.inj hbare)
      have hsegments : c'.field.segments = _ := (NamePath.mk.inj hfield).1
      exact .comparison (hsegments ▸ hF) (hop ▸ h.of_bare_eq hvalue)

/-! ## Searching -/

/-- A blank text has the end of input alone. -/
theorem tokenize_of_isBlankQuery {q : String} (hq : isBlankQuery q = true) :
    tokenize q = [.ok (.endOfInput (0 + (q.toList.takeWhile Text.isBlank).length))] := by
  have hnil : Text.trimLeft q.toList = [] :=
    (Text.trimLeft_eq_nil_iff _).mpr (List.all_eq_true.mp hq)
  rw [tokenize, Lexer.tokensFrom_eq, hnil]

/-- A blank text is not a query. -/
theorem parse_ne_ok_of_isBlankQuery {q : String} (hq : isBlankQuery q = true) (e : Expr) :
    parse q ≠ .ok e := by
  rw [parse, tokenize_of_isBlankQuery hq]
  intro h
  cases h

/-- **A blank query has no predicate**, and only a blank one. -/
theorem search_eq_none_iff {q : String} : search s q = .ok none ↔ isBlankQuery q = true := by
  unfold search
  split
  · rename_i hq
    exact ⟨fun _ => hq, fun _ => rfl⟩
  · rename_i hq
    refine ⟨fun h => ?_, fun h => absurd h hq⟩
    split at h
    · exact nomatch h
    · split at h
      · exact nomatch h
      · exact nomatch h

/-- A search for what is no expression has the error of its text. -/
theorem search_of_parse_eq_error {q : String} {err : SyntaxError} (hq : isBlankQuery q = false)
    (h : parse q = .error err) : search s q = .error (.ofSyntax err) := by
  unfold search
  rw [hq, h]
  rfl

/-- A search for what is read has the result of its tree. -/
theorem search_of_parse {q : String} {e : Expr} (h : parse q = .ok e) :
    search s q = ((translate s e).map some).mapError QueryError.ofMeaning := by
  have hq : isBlankQuery q ≠ true := fun hq => parse_ne_ok_of_isBlankQuery hq e h
  unfold search
  rw [if_neg hq, h]
  cases hm : translate s e <;> simp only [hm] <;> rfl

/-- **A search reads the query and takes its meaning.** -/
theorem search_eq_some_iff {q : String} :
    search s q = .ok (some p) ↔ ∃ e, parse q = .ok e ∧ Means s e p := by
  unfold search
  split
  · rename_i hq
    exact ⟨nofun, fun ⟨e, he, _⟩ => absurd he (parse_ne_ok_of_isBlankQuery hq e)⟩
  · simp only [← translate_eq_ok_iff]
    cases parse q with
    | error err => simp
    | ok e => cases htranslate : translate s e <;> simp [htranslate]

/-- **A text that writes a tree is searched for its meaning** exactly if it keeps the limits. -/
theorem Writes.search_eq_some_iff {q : String} {n k : Nat} {e e' : Expr} (h : Writes q n k e')
    (hbare : e'.bare = e.bare) (hp : Means s e p) :
    search s q = .ok (some p) ↔ n ≤ nestingLimit ∧ k ≤ termLimit := by
  rw [RecordQuery.search_eq_some_iff, ← h.parse_eq_ok_iff]
  constructor
  · rintro ⟨x, hx, -⟩
    obtain ⟨n', k', hwrites⟩ := exists_writes_of_parse hx
    obtain ⟨-, -, rfl⟩ := h.unique hwrites
    exact hx
  · exact fun hparse => ⟨e', hparse, hp.of_bare_eq hbare⟩

end RecordQuery
