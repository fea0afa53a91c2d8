import Mathlib.Data.List.Pairwise
import RecordQuery.Proofs.Query.Replacement
import RecordQuery.Proofs.Search.Meaning

/-!
# Numbers in quotes

A number may be compared with a number field as it is or in quotes. It is read by two readers
then. The one of queries goes by the token: a number without fraction and exponent is an integer
of 64 bits, any other a binary64 one. The one of fields goes by the text, and tries the integer
first. They agree on the text of every number of a query, because no text with a fraction or an
exponent is that of an integer (`not_isIntText_of_denotes`) and the text has no blanks to trim
(`typedNumber?_of_number`).

So the literal of the text stands for the number in every comparison with a number field, and the
meaning of a tree stays the same when literals are replaced by others that stand for them
(`Means.mapLiterals`). What remains to be shown is that the number is the only literal that is
replaced, which follows from the offsets (`eq_of_literal_offset_eq`).
-/

namespace RecordQuery

open Grammar

/-! ## Two readers of numbers -/

/-- Only a sign is split off. -/
theorem mem_splitSign {c : Char} {cs : List Char} (hc : c ∈ cs) (hminus : c ≠ '-')
    (hplus : c ≠ '+') :
    c ∈ (splitSign cs).2 := by
  unfold splitSign
  split
  · exact (List.mem_cons.mp hc).resolve_left hminus
  · exact (List.mem_cons.mp hc).resolve_left hplus
  · exact hc

/-- **A number with a fraction or an exponent is not the text of an integer**: it has a point or a
letter. -/
theorem not_isIntText_of_denotes {source : List Char} {text : String}
    (h : Lexer.Denotes source .float text) :
    ¬ IsIntText source := by
  obtain ⟨c, hc, hdigit, hminus, hplus⟩ : ∃ c ∈ source, c.isDigit = false ∧ c ≠ '-' ∧ c ≠ '+' := by
    cases h with
    | keyword hkey => simp [Lexer.keywords] at hkey
    | bracket hc => simp [Lexer.brackets] at hc
    | float hwhole hfraction hexponent hsome =>
      rcases hfraction with rfl | ⟨ds, -, rfl⟩
      · rcases hexponent with rfl | ⟨e, sign, ds, he, -, -, rfl⟩
        · exact absurd rfl hsome
        · refine ⟨e, by simp, ?_⟩
          rcases he with rfl | rfl <;> decide
      · exact ⟨'.', by simp, by decide⟩
  intro hint
  exact absurd (hdigit.symm.trans (hint.2 c (mem_splitSign hc hminus hplus))) Bool.false_ne_true

/-- **The text of a number is read as the number.** -/
theorem typedNumber?_of_number {t : Token} {source : List Char}
    (hdenotes : Lexer.Denotes source t.kind t.text) (hlegal : t.Legal)
    (hnumber : t.kind = .int ∨ t.kind = .float) :
    (∃ n, t.written.value = .int n ∧ typedNumber? t.text = some (.int n))
      ∨ ∃ x, t.written.value = .float x ∧ typedNumber? t.text = some (.float x) := by
  have hstring : t.kind ≠ .string := by rcases hnumber with h | h <;> simp [h]
  have htext : t.text.toList = source := by rw [hdenotes.text_eq hstring, String.toList_ofList]
  have htrim : Text.trim t.text.toList = t.text.toList := by
    have hplain : ∀ c ∈ t.text.toList, Text.isBlank c = false := fun c hc =>
      (hdenotes.isNumeral hnumber c (htext ▸ hc)).plain.1
    exact Text.trim_eq_self (fun c hc => hplain c (List.mem_of_mem_head? hc))
      fun c hc => hplain c (List.mem_of_mem_getLast? hc)
  simp only [typedNumber?, htrim]
  rcases hnumber with hkind | hkind
  · left
    simp only [Token.Legal, hkind] at hlegal
    refine ⟨writtenInt t.text.toList, by simp only [Token.written, hkind], ?_⟩
    rw [(readInt64?_eq_some_iff _ _).mpr ⟨hlegal, rfl⟩]
  · right
    simp only [Token.Legal, hkind] at hlegal
    have hnone : readInt64? t.text.toList = none := by
      refine Option.eq_none_iff_forall_ne_some.mpr fun n hn => ?_
      rw [hkind] at hdenotes
      exact not_isIntText_of_denotes hdenotes (htext ▸ ((readInt64?_eq_some_iff _ _).mp hn).1.1)
    refine ⟨writtenNumber t.text.toList, by simp only [Token.written, hkind], ?_⟩
    rw [hnone, (readBinary64?_eq_some_iff _ _).mpr ⟨hlegal, rfl⟩]
    rfl

/-! ## Literals that stand for others -/

/-- **A literal stands for another one** in comparisons with a field: it is null if that one is,
and it has its values. -/
def Literal.StandsFor (F : Field) (l' l : Literal) : Prop :=
  (l.value = .null → l'.value = .null) ∧ ∀ v, Coerces F l.value v → Coerces F l'.value v

variable {s : Schema} {p : Predicate} {g : Literal → Literal}

/-- What stands for null is null. -/
theorem Literal.StandsFor.eq_null {F : Field} {l : Literal} {offset : Nat}
    (h : l.StandsFor F ⟨.null, offset⟩) :
    l = ⟨.null, l.offset⟩ := by
  have hvalue : l.value = .null := h.1 rfl
  rw [← hvalue]

/-- The values of a list are those of literals that stand for its items. -/
theorem forall₂_coerces_map {F : Field} {items : List Literal} {vs : List Scalar}
    (h : List.Forall₂ (fun l v => Coerces F l.value v) items vs)
    (hg : ∀ l ∈ items, (g l).StandsFor F l) :
    List.Forall₂ (fun l v => Coerces F l.value v) (items.map g) vs := by
  induction h with
  | nil => exact .nil
  | cons hv _ ih =>
    obtain ⟨hl, hitems⟩ := List.forall_mem_cons.mp hg
    exact .cons (hl.2 _ hv) (ih hitems)

/-- **A comparison means the same with literals that stand for its own.** -/
theorem Compares.mapLiterals {F : Field} {op : Operator} {v : Operand} (h : Compares s F op v p)
    (hg : ∀ l ∈ v.literals, (g l).StandsFor F l) : Compares s F op (v.mapLiterals g) p := by
  cases h with
  | isNull hop =>
    rw [Operand.mapLiterals, (List.forall_mem_singleton.mp hg).eq_null]
    exact .isNull hop
  | isNotNull hop =>
    rw [Operand.mapLiterals, (List.forall_mem_singleton.mp hg).eq_null]
    exact .isNotNull hop
  | inEmpty hop hin => exact .inEmpty hop hin
  | notInEmpty hop hin => exact .notInEmpty hop hin
  | list hop hin hne hvs =>
    exact .list hop hin (fun hnil => hne (List.map_eq_nil_iff.mp hnil)) (forall₂_coerces_map hvs hg)
  | literal hnull hop hin hv =>
    have hv' := (List.forall_mem_singleton.mp hg).2 _ hv
    exact .literal (fun hnull => not_coerces_null (hnull ▸ hv')) hop hin hv'
  | name hop hin hG ht => exact .name hop hin hG ht

/-- **A tree means the same with literals that stand for its own.** -/
theorem Means.mapLiterals {e : Expr} (h : Means s e p) (hg : ∀ c ∈ e.comparisons, ∀ F,
    s.resolve c.field.segments = .ok F → ∀ l ∈ c.value.literals, (g l).StandsFor F l) :
    Means s (e.mapLiterals g) p := by
  induction h with
  | and _ _ ihl ihr =>
    obtain ⟨hl, hr⟩ := List.forall_mem_append.mp hg
    exact .and (ihl hl) (ihr hr)
  | or _ _ ihl ihr =>
    obtain ⟨hl, hr⟩ := List.forall_mem_append.mp hg
    exact .or (ihl hl) (ihr hr)
  | not _ ih => exact .not (ih hg)
  | comparison hF h => exact .comparison hF (h.mapLiterals (List.forall_mem_singleton.mp hg _ hF))

/-! ## Where a literal stands -/

/-- The mark of a literal is one of its operand. -/
theorem Operand.mark_mem_marks {v : Operand} {l : Literal} (hl : l ∈ v.literals) :
    l.mark ∈ v.marks := by
  cases v with
  | literal l' =>
    obtain rfl := List.mem_singleton.mp hl
    exact List.mem_cons_self
  | list items offset => exact List.mem_cons_of_mem _ (List.mem_map_of_mem hl)
  | name path => cases hl

theorem Literal.mark_mem_marks {c : Comparison} {l : Literal} (hl : l ∈ c.value.literals) :
    l.mark ∈ (Expr.comparison c).marks := List.mem_cons_of_mem _ (Operand.mark_mem_marks hl)

/-- **Two comparisons are apart**: they have no offset in common. -/
def Comparison.Apart (c c' : Comparison) : Prop :=
  ∀ m ∈ (Expr.comparison c).marks, ∀ m' ∈ (Expr.comparison c').marks, m.offset ≠ m'.offset

instance : Std.Symm Comparison.Apart := ⟨fun _ _ h m hm m' hm' => (h m' hm' m hm).symm⟩

/-- **A literal belongs to one comparison only**, which its offset determines. -/
theorem eq_of_literal_offset_eq {e : Expr}
    (hmarks : e.marks.Pairwise fun m m' => m.offset < m'.offset) {c c' : Comparison}
    (hc : c ∈ e.comparisons) (hc' : c' ∈ e.comparisons) {l l' : Literal}
    (hl : l ∈ c.value.literals) (hl' : l' ∈ c'.value.literals) (h : l.offset = l'.offset) :
    c = c' := by
  have hapart : e.comparisons.Pairwise Comparison.Apart :=
    (Expr.pairwise_comparisons hmarks).imp fun hlt m hm m' hm' => Nat.ne_of_lt (hlt m hm m' hm')
  by_contra hne
  exact hapart.forall hc hc' hne _ (Literal.mark_mem_marks hl) _ (Literal.mark_mem_marks hl') h

/-- A token with the mark of a literal writes it. -/
theorem written_of_mark? {t : Token} {l : Literal} (h : t.mark? = some l.mark) :
    t.kind.isLiteral = true ∧ t.written = l := by
  unfold Token.mark? at h
  split at h
  case h_5 =>
    split at h
    · obtain ⟨hoffset, hfeature⟩ := Mark.mk.inj (Option.some.inj h)
      exact ⟨‹_›, congrArg₂ Literal.mk (Feature.literal.inj hfeature) hoffset⟩
    · cases h
  all_goals cases congrArg Mark.feature (Option.some.inj h)

/-- **A literal of the tree has a token.** -/
theorem exists_token_of_literal {q : String} {ts : List Token} {e : Expr}
    (hts : tokenize q = ts.map .ok) (he : parse q = .ok e) {c : Comparison}
    (hc : c ∈ e.comparisons) {l : Literal} (hl : l ∈ c.value.literals) :
    ∃ t ∈ ts, t.Legal ∧ t.kind.isLiteral = true ∧ t.written = l := by
  obtain ⟨ts₁, n, hts₁, ⟨stop, -, hd⟩, -, -, hproper⟩ := exists_query_of_parse he
  obtain rfl := eq_of_map_ok_eq (hts.symm.trans hts₁)
  have hmarks : MarksAmong ts [stop] [] e.marks := hd.marks
  obtain ⟨xs, rfl, htokens⟩ := hmarks.exists_token
  have hmark : l.mark ∈ e.marks :=
    e.flatMap_marks_sublist.subset (List.mem_flatMap.mpr ⟨c, hc, Literal.mark_mem_marks hl⟩)
  obtain ⟨t, ht, hmark⟩ := htokens _ hmark
  have ht : t ∈ xs ++ [stop] := List.mem_append_left _ ht
  exact ⟨t, ht, (hproper t ht).1, written_of_mark? hmark⟩

/-! ## Quoting a number -/

/-- Whether a literal is a number. -/
def LiteralValue.isNumber : LiteralValue → Bool
  | .int _ | .float _ => true
  | _ => false

/-- **What a query has for a literal**: the text of the token at its offset, between what stands
before it and what stands after it. -/
structure Literal.Spelled (l : Literal) (q before text after : String) : Prop where
  /-- The text stands in the query. -/
  query : q = before ++ text ++ after
  /-- It stands at the offset of the literal. -/
  offset : before.length = l.offset
  /-- It is the text of the token there. -/
  token : ∃ kind, .ok ⟨kind, text, l.offset⟩ ∈ tokenize q

theorem kind_of_isNumber {t : Token} (h : t.written.value.isNumber = true) :
    t.kind = .int ∨ t.kind = .float := by
  unfold Token.written at h
  split at h
  · exact Or.inl ‹_›
  · exact Or.inr ‹_›
  all_goals cases h

/-- What stands before a literal and after it is determined by its offset and its text. -/
theorem Literal.Spelled.unique {l : Literal} {q before text after before' after' : String}
    (h : l.Spelled q before text after) (hq : q = before' ++ text ++ after')
    (hlength : before'.length = l.offset) :
    before' = before ∧ after' = after := by
  have hchars : before'.toList ++ (text.toList ++ after'.toList)
      = before.toList ++ (text.toList ++ after.toList) := by
    simpa using congrArg String.toList (hq.symm.trans h.query)
  obtain ⟨hbefore, hrest⟩ :=
    List.append_inj hchars (by rw [String.length_toList, String.length_toList, hlength, h.offset])
  exact ⟨String.toList_inj.mp hbefore, String.toList_inj.mp (List.append_cancel_left hrest)⟩

/-- **The literal of a number's text stands for the number** in comparisons with a number field. -/
theorem standsFor_requote {F : Field} (htype : F.type = .number) {t : Token} {source : List Char}
    (hdenotes : Lexer.Denotes source t.kind t.text) (hlegal : t.Legal)
    (hnumber : t.kind = .int ∨ t.kind = .float) (offset : Nat) :
    (⟨.string t.text, offset⟩ : Literal).StandsFor F t.written := by
  rcases typedNumber?_of_number hdenotes hlegal hnumber with ⟨n, hvalue, hread⟩ | ⟨x, hvalue, hread⟩
  · refine ⟨fun hnull => (nomatch hvalue.symm.trans hnull), fun v hv => ?_⟩
    rw [hvalue] at hv
    cases hv with
    | int _ => exact .number htype hread
    | digits hchoice _ => exact nomatch htype.symm.trans hchoice
  · refine ⟨fun hnull => (nomatch hvalue.symm.trans hnull), fun v hv => ?_⟩
    rw [hvalue] at hv
    cases hv with
    | float _ => exact .number htype hread

/-- **Quoting a number does not change a comparison with a number field.** -/
theorem search_quoted_number {q : String} {e : Expr} (hsearch : search s q = .ok (some p))
    (hparse : parse q = .ok e) {c : Comparison} (hc : c ∈ e.comparisons) {F : Field}
    (hF : s.resolve c.field.segments = .ok F) (htype : F.type = .number) {l : Literal}
    (hl : l ∈ c.value.literals) (hnumber : l.value.isNumber = true) :
    (∃ before text after, l.Spelled q before text after)
      ∧ ∀ before text after, l.Spelled q before text after →
        search s (before ++ "\"" ++ text ++ "\"" ++ after) = .ok (some p) := by
  obtain ⟨e₁, he₁, hmeans⟩ := search_eq_some_iff.mp hsearch
  obtain rfl : e = e₁ := Except.ok.inj (hparse.symm.trans he₁)
  obtain ⟨ts, hts⟩ := exists_tokens_of_parse hparse
  obtain ⟨t, ht, hlegal, -, rfl⟩ := exists_token_of_literal hts hparse hc hl
  have hkind := kind_of_isNumber hnumber
  have hmem : .ok t ∈ tokenize q := hts ▸ List.mem_map_of_mem ht
  have hplace : t.written.offset = t.offset := t.offset_written
  obtain ⟨before, after, e', hq, hlength, hparse', hbare⟩ :=
    exists_parse_of_quoted hts hparse ht hkind
  have hspelled : t.written.Spelled q before t.text after :=
    ⟨hq, hlength.trans hplace.symm, t.kind, hplace.symm ▸ hmem⟩
  have hstands : ∀ c' ∈ e.comparisons, ∀ F', s.resolve c'.field.segments = .ok F' →
      ∀ l' ∈ c'.value.literals,
      (l'.requote t.offset t.text).StandsFor F' l' := by
    intro c' hc' F' hF' l' hl'
    unfold Literal.requote
    split
    · rename_i hoffset
      -- the literal that is replaced is the number, and the comparison is the given one
      obtain ⟨t', ht', -, -, rfl⟩ := exists_token_of_literal hts hparse hc' hl'
      obtain rfl : t' = t := eq_of_offset_eq hts ht' ht (t'.offset_written.symm.trans hoffset)
      obtain rfl := eq_of_literal_offset_eq (parse_marks hparse).2.1 hc' hc hl' hl rfl
      obtain rfl := Except.ok.inj (hF'.symm.trans hF)
      obtain ⟨source, -, -, -, hdenotes, -⟩ :=
        Token.exists_source hmem (by rcases hkind with h | h <;> simp [h])
      exact standsFor_requote htype hdenotes hlegal hkind _
    · exact ⟨id, fun _ => id⟩
  refine ⟨⟨before, t.text, after, hspelled⟩, fun before' text' after' h => ?_⟩
  obtain ⟨kind, htoken⟩ := h.token
  have hsame : t = ⟨kind, text', t.written.offset⟩ := by
    rw [hts] at htoken
    obtain ⟨u, hu, hok⟩ := List.mem_map.mp htoken
    obtain rfl := Except.ok.inj hok
    exact eq_of_offset_eq hts ht hu hplace.symm
  obtain rfl : t.text = text' := congrArg Token.text hsame
  obtain ⟨rfl, rfl⟩ := hspelled.unique h.query h.offset
  exact search_eq_some_iff.mpr ⟨e', hparse', (hmeans.mapLiterals hstands).of_bare_eq hbare⟩

/-- An integer with a leading zero and a number with an exponent, in a list: either
may be put in quotes. -/
theorem search_quoted_number_list :
    let s : Schema :=
      ⟨Registry.empty.withModel "transfer" ⟨[.plain "amount" .number]⟩, "transfer", .standard,
      by decide +kernel, by decide +kernel⟩
    let x := writtenNumber "-1.50e2".toList
    let p : Predicate := .compare ⟨["amount"], .number⟩ .isIn (.list [.int 2, .float x])
    search s "amount in [02,-1.50e2]" = .ok (some p)
      ∧ search s "amount in [\"02\",-1.50e2]" = .ok (some p)
      ∧ search s "amount in [02,\"-1.50e2\"]" = .ok (some p) := by
  intro s x p
  let q := "amount in [02,-1.50e2]"
  let c : Comparison := ⟨⟨["amount"], 0⟩, .isIn, .list [⟨.int 2, 11⟩, ⟨.float x, 14⟩] 10, 0⟩
  have hsearch : search s q = .ok (some p) := by decide +kernel
  have hparse : parse q = .ok (.comparison c) := by decide +kernel
  have hF : s.resolve c.field.segments
      = .ok ⟨["amount"], "transfer", .plain "amount" .number⟩ := by decide +kernel
  have hint : (⟨.int 2, 11⟩ : Literal).Spelled q "amount in [" "02" ",-1.50e2]" :=
    ⟨by decide, by decide, .int, by decide +kernel⟩
  have hfloat : (⟨.float x, 14⟩ : Literal).Spelled q "amount in [02," "-1.50e2" "]" :=
    ⟨by decide, by decide, .float, by decide +kernel⟩
  exact ⟨hsearch,
    (search_quoted_number hsearch hparse (List.mem_singleton_self c) hF rfl List.mem_cons_self
      rfl).2 _ _ _ hint,
    (search_quoted_number hsearch hparse (List.mem_singleton_self c) hF rfl
      (List.mem_cons_of_mem _ List.mem_cons_self) rfl).2 _ _ _ hfloat⟩

end RecordQuery
