import Mathlib.Data.List.Nodup
import RecordQuery.Proofs.Query.Literals
import RecordQuery.Proofs.Query.SourceMap

/-!
# A literal in the place of another one

What becomes of the tree of a query when one of its numbers is put in quotes. The characters
before the number are cut into the same tokens as before, because a quote ends every token
(`Lexer.endsAs_quote`); then comes a string literal that has the text of the number; and the
characters after it are cut into tokens of the same sense.

For the grammar one literal is as good as another. So the same phrase is derived when literals
stand in the place of literals, with a tree in which they have been replaced too
(`Grammar.Derives.map`), and the tree of the new query is that of the old one with one literal
replaced, but for offsets (`exists_parse_of_quoted`).
-/

namespace RecordQuery

open Grammar

/-! ## Characters -/

namespace Lexer

/-- **A quote ends every token** that any text ends. Nothing goes on with a quote, and where an
exponent would be cut off in front of it, one was cut off before. -/
theorem endsAs_quote {quote : Char} (hquote : quote = '"' ∨ quote = '\'') (mid r tail : List Char) :
    EndsAs (mid ++ r) (mid ++ quote :: tail) := by
  have hsign : continuesWord quote = false ∧ quote ≠ '=' := by
    rcases hquote with rfl | rfl <;> decide
  have hdigit : quote.isDigit = false := by rcases hquote with rfl | rfl <;> decide
  refine ⟨fun d hd => ?_, fun hnone => ?_⟩
  · cases mid with
    | nil =>
      obtain rfl : quote = d := Option.some.inj hd
      exact Or.inl hsign
    | cons c mid => exact Or.inr ⟨d, hd, rfl⟩
  · match mid, hnone with
    | [], _ =>
      refine exponent_of_ne ?_ tail
      rcases hquote with rfl | rfl <;> decide
    | [e], _ =>
      by_cases he : e = 'e' ∨ e = 'E'
      · have hplain : ¬ (quote = '+' ∨ quote = '-') := by rcases hquote with rfl | rfl <;> decide
        exact (exponent_eq_nil_iff he hplain tail).mpr hdigit
      · exact exponent_of_ne he _
    | e :: s :: mid, hnone =>
      by_cases he : e = 'e' ∨ e = 'E'
      · by_cases hs : s = '+' ∨ s = '-'
        · simp only [List.cons_append, exponent_sign he hs] at hnone ⊢
          cases mid with
          | nil => simp [hdigit]
          | cons d mid =>
            by_cases hd : d.isDigit = true
            · simp [hd] at hnone
            · simp [hd]
        · rw [List.cons_append, List.cons_append, exponent_eq_nil_iff he hs] at hnone ⊢
          exact hnone
      · exact exponent_of_ne he _

/-- The characters of a number. -/
def IsNumeral (c : Char) : Prop := c.isDigit = true ∨ c ∈ ['-', '+', '.', 'e', 'E']

/-- No character of a number is a blank, a quote or a backslash. -/
theorem IsNumeral.plain {c : Char} (h : IsNumeral c) :
    Text.isBlank c = false ∧ c ≠ '"' ∧ c ≠ '\\' := by
  have hbounds : 43 ≤ c.toNat ∧ c.toNat ≤ 101 ∧ c.toNat ≠ 92 := by
    rcases h with h | h
    · simp only [Char.isDigit_iff_toNat, Char.reduceToNat] at h
      omega
    · have htable : (['-', '+', '.', 'e', 'E'].all fun d => 43 ≤ d.toNat && d.toNat ≤ 101
        && d.toNat != 92) = true := by
        decide
      simpa [and_assoc] using List.all_eq_true.mp htable c h
  refine ⟨Text.isBlank_of_ascii (by omega) (by omega), ?_, ?_⟩
  · rintro rfl
    exact absurd hbounds.1 (by decide)
  · rintro rfl
    exact hbounds.2.2 rfl

section Numeral

variable {cs source : List Char} {kind : TokenKind} {text : String}

theorem IsDigits.isNumeral (h : IsDigits cs) : ∀ c ∈ cs, IsNumeral c :=
  fun c hc => Or.inl (h.2 c hc)

theorem IsWhole.isNumeral (h : IsWhole cs) : ∀ c ∈ cs, IsNumeral c := by
  obtain ⟨ds, hds, rfl | rfl⟩ := h
  · exact hds.isNumeral
  · exact List.forall_mem_cons.mpr ⟨Or.inr (by decide), hds.isNumeral⟩

theorem IsFraction.isNumeral (h : IsFraction cs) : ∀ c ∈ cs, IsNumeral c := by
  obtain ⟨ds, hds, rfl⟩ := h
  exact List.forall_mem_cons.mpr ⟨Or.inr (by decide), hds.isNumeral⟩

theorem IsExponent.isNumeral (h : IsExponent cs) : ∀ c ∈ cs, IsNumeral c := by
  obtain ⟨e, sign, ds, he, hsign, hds, rfl⟩ := h
  refine List.forall_mem_cons.mpr ⟨Or.inr ?_,
    List.forall_mem_append.mpr ⟨fun c hc => Or.inr ?_, hds.isNumeral⟩⟩
  · rcases he with rfl | rfl <;> decide
  · rcases hsign with rfl | rfl | rfl
    · cases hc
    · obtain rfl := List.mem_singleton.mp hc
      decide
    · obtain rfl := List.mem_singleton.mp hc
      decide

/-- **A number is written in digits**, signs, points and the letters of exponents. -/
theorem Denotes.isNumeral (h : Denotes source kind text) (hkind : kind = .int ∨ kind = .float) :
    ∀ c ∈ source, IsNumeral c := by
  have hnone : ∀ {cs : List Char} {P : List Char → Prop}, (P cs → ∀ c ∈ cs, IsNumeral c) →
      cs = [] ∨ P cs →
      ∀ c ∈ cs, IsNumeral c := by
    rintro cs P hP (rfl | h)
    · exact List.forall_mem_nil _
    · exact hP h
  rcases hkind with rfl | rfl
  · cases h with
    | keyword hkey => simp [keywords] at hkey
    | int hwhole => exact hwhole.isNumeral
    | bracket hc => simp [brackets] at hc
  · cases h with
    | keyword hkey => simp [keywords] at hkey
    | float hwhole hfraction hexponent _ =>
      exact List.forall_mem_append.mpr ⟨List.forall_mem_append.mpr ⟨hwhole.isNumeral,
        hnone IsFraction.isNumeral hfraction⟩, hnone IsExponent.isNumeral hexponent⟩
    | bracket hc => simp [brackets] at hc

/-- **A number has the text of its source**, and its characters are those of a number. -/
theorem source_of_number {c : Char} {rest : List Char} {l : Lexeme} (hl : lexeme c rest = .ok l)
    (hnumber : l.kind = .int ∨ l.kind = .float) :
    c :: rest = l.text ++ rest.drop l.more ∧ ∀ d ∈ l.text, IsNumeral d := by
  obtain ⟨-, hdenotes⟩ := takes_of_lexeme hl
  have hstring : l.kind ≠ .string := by
    rcases hnumber with h | h <;> exact fun hkind => nomatch hkind.symm.trans h
  have htext : l.text = c :: rest.take l.more := String.ofList_injective (hdenotes.text_eq hstring)
  rw [htext, List.cons_append, List.take_append_drop]
  exact ⟨rfl, hdenotes.isNumeral hnumber⟩

/-- **In quotes, a number is a string literal** of its text. -/
theorem lexeme_quoted (h : ∀ c ∈ cs, IsNumeral c) (rest : List Char) :
    lexeme '"' (cs ++ '"' :: rest) = .ok ⟨.string, cs, cs.length + 1⟩ := by
  show string '"' _ = _
  exact string_closed (by decide) (encodes_self fun c hc => (h c hc).plain.2) rest

end Numeral

end Lexer

/-- **A number in quotes is a string literal of its text**, and the tokens around it keep their
sense. -/
theorem exists_tokens_of_quoted {q : String} {ts : List Token} (hts : tokenize q = ts.map .ok)
    {t : Token} (ht : t ∈ ts) (hnumber : t.kind = .int ∨ t.kind = .float) :
    ∃ a b front us us', q = a ++ t.text ++ b ∧ a.length = t.offset ∧ ts = front ++ t :: us
      ∧ tokenize (a ++ "\"" ++ t.text ++ "\"" ++ b)
        = (front ++ { t with kind := .string } :: us').map .ok
      ∧ us'.map Token.sense = us.map Token.sense := by
  have hend : t.kind ≠ .endOfInput := by rcases hnumber with h | h <;> simp [h]
  have hmem : .ok t ∈ tokenize q := hts ▸ List.mem_map_of_mem ht
  obtain ⟨front, before, c, rest, l, hq, hc, hl, rfl, htokens, hmoved⟩ :=
    Lexer.exists_cut_of_mem hmem hend
  obtain ⟨hsource, hnumeral⟩ := Lexer.source_of_number hl hnumber
  -- the tokens in front of the number and behind it
  rw [Lexer.tokensFrom_cons hc, hl] at htokens
  obtain ⟨front', behind, rfl, hfront, hbehind⟩ :=
    List.map_eq_append_iff.mp (hts.symm.trans htokens)
  obtain rfl : front' = front := eq_of_map_ok_eq hfront
  obtain ⟨t', us, rfl, ht', hus⟩ := List.map_eq_cons_iff.mp hbehind
  obtain rfl := Except.ok.inj ht'
  obtain ⟨us₁, us', hus₁, hus', hsenses⟩ := (Lexer.relaid_self hus.symm).tokens
    (0 + before.length + (l.more + 1)) (0 + before.length + (l.text.length + 1 + 1))
  obtain rfl : us = us₁ := eq_of_map_ok_eq (hus.trans hus₁)
  refine ⟨String.ofList before, String.ofList (rest.drop l.more), front', us, us', ?_, ?_, rfl,
    ?_, hsenses⟩
  · rw [← String.ofList_append, ← String.ofList_append, List.append_assoc, ← hsource, ← hq,
      String.ofList_toList]
  · rw [String.length_ofList, Nat.zero_add]
  · have hblank : Text.isBlank '"' = false := Text.isBlank_of_ascii (by decide) (by decide)
    have hchars :
        (String.ofList before ++ "\"" ++ String.ofList l.text ++ "\""
          ++ String.ofList (rest.drop l.more)).toList
        = before ++ '"' :: (l.text ++ '"' :: rest.drop l.more) := by simp
    have hdrop :
        (l.text ++ '"' :: rest.drop l.more).drop (l.text.length + 1) = rest.drop l.more := by
      rw [List.append_cons]
      exact List.drop_left' (by simp)
    rw [tokenize, hchars, hmoved _ fun mid => Lexer.endsAs_quote (Or.inl rfl) mid _ _,
      Lexer.tokensFrom_cons hblank, Lexer.lexeme_quoted hnumeral]
    dsimp only
    rw [hdrop, hus', List.map_append, List.map_cons]

/-! ## Trees -/

/-- The operand with every literal replaced. -/
def Operand.mapLiterals (g : Literal → Literal) : Operand → Operand
  | .literal l => .literal (g l)
  | .list items offset => .list (items.map g) offset
  | .name path => .name path

/-- The comparison with every literal replaced. -/
def Comparison.mapLiterals (g : Literal → Literal) (c : Comparison) : Comparison :=
  { c with value := c.value.mapLiterals g }

/-- **The expression with every literal replaced.** -/
def Expr.mapLiterals (g : Literal → Literal) : Expr → Expr
  | .logical op left right => .logical op (left.mapLiterals g) (right.mapLiterals g)
  | .not operand offset => .not (operand.mapLiterals g) offset
  | .comparison c => .comparison (c.mapLiterals g)

namespace Grammar

/-- **A change of tokens that replaces literals by literals**: each token that is no literal is
kept, and a literal becomes one that writes what the other change says. -/
structure Replaces (f : Token → Token) (g : Literal → Literal) : Prop where
  /-- Other tokens are kept. -/
  kept : ∀ {t : Token}, t.kind.isLiteral = false → f t = t
  /-- A literal stays one. -/
  isLiteral : ∀ {t : Token}, t.kind.isLiteral = true → (f t).kind.isLiteral = true
  /-- It writes the replacement. -/
  written : ∀ {t : Token}, t.kind.isLiteral = true → (f t).written = g t.written

section Replacing

variable {f : Token → Token} {g : Literal → Literal} (hf : Replaces f g)
include hf

/-- A token of a kind that is no literal's is kept. -/
theorem Replaces.of_kind {t : Token} {kind : TokenKind} (ht : t.kind = kind)
    (hkind : kind.isLiteral = false) :
    f t = t := hf.kept (ht ▸ hkind)

theorem OperatorAt.map {ts us : List Token} {op : Operator} (h : OperatorAt ts op us) :
    OperatorAt (ts.map f) op (us.map f) := by
  cases h with
  | symbol ht =>
    rw [List.map_cons, hf.of_kind ht rfl]
    exact .symbol ht
  | notIn ht hu =>
    rw [List.map_cons, List.map_cons, hf.of_kind ht rfl, hf.of_kind hu rfl]
    exact .notIn ht hu

theorem ItemsAt.map {ts us : List Token} {ls : List Literal} (h : ItemsAt ts ls us) :
    ItemsAt (ts.map f) (ls.map g) (us.map f) := by
  induction h with
  | none => exact .none
  | last ht =>
    rw [List.map_cons, List.map_singleton, ← hf.written ht]
    exact .last (hf.isLiteral ht)
  | more ht hc _ ih =>
    rw [List.map_cons, List.map_cons, List.map_cons, ← hf.written ht, hf.of_kind hc rfl]
    exact .more (hf.isLiteral ht) hc ih

theorem OperandAt.map {ts us : List Token} {v : Operand} (h : OperandAt ts v us) :
    OperandAt (ts.map f) (v.mapLiterals g) (us.map f) := by
  cases h with
  | literal ht =>
    rw [List.map_cons, Operand.mapLiterals, ← hf.written ht]
    exact .literal (hf.isLiteral ht)
  | name ht =>
    rw [List.map_cons, hf.of_kind ht rfl]
    exact .name ht
  | list round ho hs hc =>
    have hitems := hs.map hf
    rw [List.map_cons, hf.of_kind hc (isLiteral_closingKind round)] at hitems
    rw [List.map_cons, hf.of_kind ho (isLiteral_openingKind round)]
    exact .list round ho hitems hc

theorem ComparisonAt.map {ts us : List Token} {c : Comparison} (h : ComparisonAt ts c us) :
    ComparisonAt (ts.map f) (c.mapLiterals g) (us.map f) := by
  cases h with
  | mk ht hop hv =>
    rw [List.map_cons, hf.of_kind ht rfl]
    exact .mk ht (hop.map hf) (hv.map hf)

/-- The phrase with the literals replaced in the tree that it goes on with. -/
def Phrase.mapLiterals (g : Literal → Literal) : Phrase → Phrase
  | .links op left => .links op (left.mapLiterals g)
  | p => p

/-- **Literals in the place of literals make the same phrase**, with the tree in which they are
replaced. The induction is on the derivation. -/
theorem Derives.map {p : Phrase} {n k : Nat} {ts us : List Token} {e : Expr}
    (h : Derives p n k ts e us) :
    Derives (p.mapLiterals g) n k (ts.map f) (e.mapLiterals g) (us.map f) := by
  have hoperand : ∀ op : Connective, (Phrase.operandOf op).mapLiterals g = .operandOf op :=
    fun op => by
    cases op <;> rfl
  induction h with
  | comparison h => exact .comparison (h.map hf)
  | not ht _ ih =>
    rw [List.map_cons, hf.of_kind ht rfl]
    exact .not ht ih
  | group ho _ hc ih =>
    rw [List.map_cons, hf.of_kind hc rfl] at ih
    rw [List.map_cons, hf.of_kind ho rfl]
    exact .group ho ih hc
  | chain _ _ ih ihs =>
    rw [hoperand] at ih
    exact .chain ih ihs
  | done => exact .done
  | @link m n j k op t ts us vs a b e ht _ _ ih ihs =>
    rw [hoperand] at ih
    rw [List.map_cons, hf.of_kind ht (by cases op <;> rfl)]
    exact .link ht ih ihs

theorem IsQuery.map {n k : Nat} {ts : List Token} {e : Expr} (h : IsQuery n k ts e) :
    IsQuery n k (ts.map f) (e.mapLiterals g) := by
  obtain ⟨stop, hstop, hd⟩ := h
  have hd' := hd.map hf
  rw [List.map_singleton, hf.of_kind hstop rfl] at hd'
  exact ⟨stop, hstop, hd'⟩

end Replacing

end Grammar

/-! ## Queries -/

/-- The literal at an offset replaced by a text. -/
def Literal.requote (offset : Nat) (text : String) (l : Literal) : Literal :=
  if l.offset = offset then ⟨.string text, offset⟩ else l

/-- The literal token at an offset replaced by a string literal. -/
def Token.requote (offset : Nat) (text : String) (t : Token) : Token :=
  if t.kind.isLiteral = true ∧ t.offset = offset then ⟨.string, text, offset⟩ else t

theorem replaces_requote (offset : Nat) (text : String) :
    Replaces (Token.requote offset text) (Literal.requote offset text) where
  kept ht := if_neg fun h => absurd (ht.symm.trans h.1) Bool.false_ne_true
  isLiteral {t} ht := by
    unfold Token.requote
    split
    · rfl
    · exact ht
  written {t} ht := by
    unfold Token.requote Literal.requote
    by_cases ho : t.offset = offset
    · rw [if_pos ⟨ht, ho⟩, if_pos (t.offset_written.trans ho)]
      rfl
    · rw [if_neg fun h => ho h.2, if_neg fun h => ho (t.offset_written.symm.trans h)]

/-- The tokens of a query stand at different places. -/
theorem eq_of_offset_eq {q : String} {ts : List Token} (hts : tokenize q = ts.map .ok)
    {t u : Token} (ht : t ∈ ts) (hu : u ∈ ts) (h : t.offset = u.offset) : t = u := by
  have hnodup : (ts.map Token.offset).Nodup :=
    List.pairwise_map.mpr ((pairwise_follows_of_tokenize hts).imp fun hfollows =>
      Nat.ne_of_lt hfollows.1)
  exact List.inj_on_of_nodup_map hnodup ht hu h

/-- A change at one place leaves the tokens around it as they are. -/
theorem map_requote {front us : List Token} {t : Token}
    (hts : (front ++ t :: us).Pairwise fun t u => Lexer.Follows (.ok t) (.ok u))
    (ht : t.kind.isLiteral = true) (text : String) :
    (front ++ t :: us).map (Token.requote t.offset text) = front ++ ⟨.string, text, t.offset⟩
      :: us := by
  obtain ⟨-, hbehind, hfront⟩ := List.pairwise_append.mp hts
  have hkept : ∀ u : Token, u.offset ≠ t.offset → u.requote t.offset text = u :=
    fun u hu => if_neg fun h => hu h.2
  have hchanged : t.requote t.offset text = ⟨.string, text, t.offset⟩ := if_pos ⟨ht, rfl⟩
  rw [List.map_append, List.map_cons, hchanged]
  congr 1
  · refine (List.map_congr_left fun u hu => ?_).trans (List.map_id front)
    exact hkept u (Nat.ne_of_lt (hfront u hu t List.mem_cons_self).1)
  · congr 1
    refine (List.map_congr_left fun u hu => ?_).trans (List.map_id us)
    exact hkept u (Nat.ne_of_gt (List.rel_of_pairwise_cons hbehind hu).1)

/-- **A number put in quotes is replaced in the tree** by the literal of its text, and nothing
else changes but offsets. -/
theorem exists_parse_of_quoted {q : String} {ts : List Token} {e : Expr}
    (hts : tokenize q = ts.map .ok) (he : parse q = .ok e) {t : Token} (ht : t ∈ ts)
    (hnumber : t.kind = .int ∨ t.kind = .float) :
    ∃ a b e',
      q = a ++ t.text ++ b ∧ a.length = t.offset
        ∧ parse (a ++ "\"" ++ t.text ++ "\"" ++ b) = .ok e'
      ∧ e'.bare = (e.mapLiterals (Literal.requote t.offset t.text)).bare := by
  obtain ⟨a, b, front, us, us', hq, ha, rfl, hts', hsenses⟩ :=
    exists_tokens_of_quoted hts ht hnumber
  obtain ⟨n, k, hwrites⟩ := exists_writes_of_parse he
  obtain ⟨hn, hk⟩ := hwrites.parse_eq_ok_iff.mp he
  obtain ⟨ts, hts₁, hlegal, hquery⟩ := hwrites
  obtain rfl := eq_of_map_ok_eq (hts.symm.trans hts₁)
  have hliteral : t.kind.isLiteral = true := by rcases hnumber with h | h <;> rw [h] <;> rfl
  have hchanged := hquery.map (replaces_requote t.offset t.text)
  rw [map_requote (pairwise_follows_of_tokenize hts) hliteral] at hchanged
  have hsame : (front ++ { t with kind := .string } :: us').map Token.sense
      = (front ++ ⟨.string, t.text, t.offset⟩ :: us).map Token.sense := by
    rw [List.map_append, List.map_append, List.map_cons, List.map_cons, hsenses]
  have hlegal' : ∀ u ∈ front ++ ⟨.string, t.text, t.offset⟩ :: us, u.Legal := by
    obtain ⟨hfront, hbehind⟩ := List.forall_mem_append.mp hlegal
    exact List.forall_mem_append.mpr ⟨hfront,
      List.forall_mem_cons.mpr ⟨trivial, (List.forall_mem_cons.mp hbehind).2⟩⟩
  obtain ⟨e', hbare, hquery'⟩ := hchanged.of_senses hsame
  have hwrites' : Writes (a ++ "\"" ++ t.text ++ "\"" ++ b) n k e' :=
    ⟨_, hts', forall_legal_of_senses_eq hlegal' hsame, hquery'⟩
  exact ⟨a, b, e', hq, ha, hwrites'.parse_eq_ok_iff.mpr ⟨hn, hk⟩, hbare⟩

end RecordQuery
