import RecordQuery.Proofs.Query.Boundary
import RecordQuery.Proofs.Query.Printing

/-!
# Queries in parentheses

What a query is read as when it stands in parentheses inside another one. Neither step of reading
looks at what is around the query: its characters are cut into the same tokens in front of a
closing parenthesis as in front of the end (`lexeme_append_paren`), but for their offsets, and
what the grammar derives from tokens it derives from any tokens with the same sense, whatever
follows them (`Derives.transport`).

A text `Writes` a tree when its tokens are legal and derive it; then it is read as the tree
exactly if the limits are kept (`Writes.parse_eq_ok_iff`). Two texts in parentheses with a
connective between them write the trees joined (`Writes.join`), and one in parentheses after a
negation writes the tree negated (`Writes.negate`). Every pair of parentheses is one level
more, and so is the negation.
-/

namespace RecordQuery

open Grammar

namespace Lexer

/-! ## Characters in front of a parenthesis -/

section Cut

variable {cs tail : List Char}

/-- No exponent goes on with a parenthesis. -/
theorem exponent_append_paren : exponent (cs ++ ')' :: tail) = exponent cs := by
  have htake : ∀ cs : List Char,
      (cs ++ ')' :: tail).takeWhile Char.isDigit = cs.takeWhile Char.isDigit := by
    refine fun cs => (span_of_halts fun _ c hc => ?_).1
    obtain rfl : ')' = c := Option.some.inj hc
    decide
  cases cs with
  | nil => rfl
  | cons e cs =>
    cases cs with
    | nil =>
      show (if e = 'e' ∨ e = 'E' then (if (')' = '+' ∨ ')' = '-') then _ else _) else []) = _
      unfold exponent
      simp
    | cons s cs =>
      have hs := htake (s :: cs)
      rw [List.cons_append] at hs
      unfold exponent
      simp only [List.cons_append, htake, hs]

/-- A parenthesis ends what the rest in front of it ends. -/
theorem endsAs_append_paren : EndsAs cs (cs ++ ')' :: tail) := by
  refine ⟨fun d hd => ?_, fun h => exponent_append_paren.trans h⟩
  cases cs with
  | nil =>
    obtain rfl : ')' = d := Option.some.inj hd
    exact Or.inl (by decide)
  | cons c cs => exact Or.inr ⟨d, hd, rfl⟩

/-- **A parenthesis ends every token**: in front of it, a text begins with the same one
as in front of the end. -/
theorem lexeme_append_paren {c : Char} {l : Lexeme} (h : lexeme c cs = .ok l) :
    lexeme c (cs ++ ')' :: tail) = .ok l := by
  obtain ⟨hmore, -⟩ := takes_of_lexeme h
  rw [← List.take_append_drop l.more cs] at h ⊢
  rw [List.append_assoc]
  exact lexeme_of_endsAs endsAs_append_paren h (List.length_take_of_le hmore).symm

end Cut

/-! ## Texts in front of a parenthesis -/

/-- Blanks spell nothing. -/
theorem spells_blanks {ends : List Char → Prop} {cs : List Char}
    (h : ∀ c ∈ cs, Text.isBlank c = true) :
    Spells ends cs [] := by
  induction cs with
  | nil => exact spells_nil
  | cons c cs ih =>
    obtain ⟨hc, hcs⟩ := List.forall_mem_cons.mp h
    exact (spells_blank hc).append (ih hcs) fun _ _ => trivial

/-- Whether a text begins with a closing parenthesis. -/
def AtParen (rest : List Char) : Prop := ∃ tail, rest = ')' :: tail

/-- **A text spells its tokens in front of a parenthesis.** The induction follows the cuts. -/
theorem spells_of_tokensFrom (offset : Nat) (cs : List Char) :
    ∀ {ts : List Token} {stop : Token}, stop.kind = .endOfInput →
      tokensFrom offset cs = (ts ++ [stop]).map .ok → Spells AtParen cs (ts.map Token.content) := by
  induction offset, cs using tokensFrom.induct with
  | case1 offset cs hnil =>
    intro ts stop hstop h
    rw [tokensFrom_eq, hnil] at h
    obtain rfl : ts = [] := by
      have hlength := congrArg List.length h
      simpa using hlength
    exact spells_blanks ((Text.trimLeft_eq_nil_iff cs).mp hnil)
  | case2 offset cs c rest hcons f hf =>
    -- an error is no token
    intro ts stop hstop h
    rw [tokensFrom_eq, hcons] at h
    simp only [hf] at h
    cases ts with
    | nil => cases (List.cons.inj h).1
    | cons t ts => cases (List.cons.inj h).1
  | case3 offset cs start c rest hcons l hl =>
    rename_i ih
    intro ts stop hstop h
    obtain ⟨hmore, -⟩ := takes_of_lexeme hl
    obtain ⟨hcs, hc⟩ := Text.append_of_trimLeft hcons
    have htext : cs.takeWhile Text.isBlank ++ ((c :: rest.take l.more) ++ rest.drop l.more)
        = cs := by
      rw [List.cons_append, List.take_append_drop, hcs]
    rw [tokensFrom_eq, hcons] at h
    simp only [hl] at h
    cases ts with
    | nil =>
      obtain rfl := Except.ok.inj (List.cons.inj h).1
      exact absurd hstop (sound_of_lexeme hl).1
    | cons t ts =>
      obtain ⟨ht, hrest⟩ := List.cons.inj h
      obtain rfl := Except.ok.inj ht
      have hfirst :
          Spells (fun r => ∃ tail, r = rest.drop l.more ++ ')' :: tail) (c :: rest.take l.more)
          [(l.kind, String.ofList l.text)] := by
        refine spells_lexeme hc (List.length_take_of_le hmore).symm ?_
        rintro _ ⟨tail, rfl⟩
        rw [← List.append_assoc, List.take_append_drop]
        exact lexeme_append_paren hl
      have hboth : Spells AtParen ((c :: rest.take l.more) ++ rest.drop l.more) _ :=
        hfirst.append (ih hstop hrest) fun r hr => hr.imp fun _ => congrArg (rest.drop l.more ++ ·)
      have hblanks : Spells (fun _ => True) (cs.takeWhile Text.isBlank) [] :=
        spells_blanks (List.all_eq_true.mp List.all_takeWhile)
      rw [← htext]
      exact hblanks.append hboth fun _ _ => trivial

end Lexer

/-! ## Tokens with the same sense -/

/-- Whether a token of this kind is a keyword, which may be in any letter case. -/
def TokenKind.isKeyword : TokenKind → Bool
  | .and | .or | .not | .operator .isIn | .bool | .null => true
  | _ => false

/-- **The sense of a token**: its kind and its text, but for the letter case of a keyword. -/
def Token.sense (t : Token) : TokenKind × List Char :=
  (t.kind, if t.kind.isKeyword then t.text.toList.map Char.toLower else t.text.toList)

section Sense

variable {t t' : Token}

theorem sense_of_content_eq (h : t'.content = t.content) : t'.sense = t.sense := by
  have hkind : t'.kind = t.kind := congrArg Prod.fst h
  have htext : t'.text = t.text := congrArg Prod.snd h
  unfold Token.sense
  rw [hkind, htext]

/-- Tokens with the same contents have the same sense. -/
theorem senses_of_contents_eq {ts ts' : List Token}
    (h : ts'.map Token.content = ts.map Token.content) :
    ts'.map Token.sense = ts.map Token.sense := by
  induction ts' generalizing ts with
  | nil =>
    obtain rfl := List.map_eq_nil_iff.mp h.symm
    rfl
  | cons t' ts' ih =>
    obtain ⟨t, ts, rfl, ht, hts⟩ := List.map_eq_cons_iff.mp h.symm
    rw [List.map_cons, List.map_cons, sense_of_content_eq ht.symm, ih hts.symm]

theorem kind_of_sense_eq (h : t'.sense = t.sense) : t'.kind = t.kind := congrArg Prod.fst h

/-- A token that is no keyword has a text of its own. -/
theorem text_of_sense_eq (h : t'.sense = t.sense) (ht : t.kind.isKeyword = false) :
    t'.text = t.text := by
  have hkind := kind_of_sense_eq h
  have htext := congrArg Prod.snd h
  simp only [Token.sense, hkind, ht, Bool.false_eq_true, if_false] at htext
  exact String.toList_inj.mp htext

/-- Whether a token is legal is a matter of its sense. -/
theorem Token.Legal.of_sense_eq (ht : t.Legal) (h : t'.sense = t.sense) : t'.Legal := by
  have hkind := kind_of_sense_eq h
  cases hkeyword : t.kind.isKeyword with
  | true =>
    unfold Token.Legal
    rw [hkind]
    split
    case h_4 => trivial
    all_goals simp [*, TokenKind.isKeyword] at hkeyword
  | false =>
    unfold Token.Legal Token.segments at ht ⊢
    rwa [hkind, text_of_sense_eq h hkeyword]

/-- The value that a token writes is a matter of its sense. -/
theorem value_written_of_sense_eq (h : t'.sense = t.sense) :
    t'.written.value = t.written.value := by
  have hkind := kind_of_sense_eq h
  cases hkeyword : t.kind.isKeyword with
  | true =>
    have hlower := congrArg Prod.snd h
    simp only [Token.sense, hkind, hkeyword, if_true] at hlower
    unfold Token.written
    rw [hkind]
    split
    case h_4 => rw [hlower]
    case h_5 => rfl
    all_goals simp [*, TokenKind.isKeyword] at hkeyword
  | false =>
    unfold Token.written
    rw [hkind, text_of_sense_eq h hkeyword]
    split <;> rfl

theorem segments_of_sense_eq (h : t'.sense = t.sense) (ht : t.kind = .name) :
    t'.writtenPath.segments = t.writtenPath.segments := by
  show splitPoints t'.text = splitPoints t.text
  rw [text_of_sense_eq h (by rw [ht]; rfl)]

/-- All tokens are legal when those with the same sense are. -/
theorem forall_legal_of_senses_eq {ts ts' : List Token} (hts : ∀ t ∈ ts, t.Legal)
    (h : ts'.map Token.sense = ts.map Token.sense) : ∀ t ∈ ts', t.Legal := by
  intro t' ht'
  obtain ⟨t, ht, hsense⟩ := List.mem_map.mp (h ▸ List.mem_map_of_mem ht')
  exact (hts t ht).of_sense_eq hsense.symm

/-- Tokens that stand for something between two other things stand between two tokens. -/
theorem exists_enclosed_of_map {α : Type} {f : Token → α} {ts : List Token} {o c : α} {as : List α}
    (h : ts.map f = o :: (as ++ [c])) :
    ∃ t xs u, ts = t :: (xs ++ [u]) ∧ f t = o ∧ xs.map f = as ∧ f u = c := by
  obtain ⟨t, rest, rfl, ht, hrest⟩ := List.map_eq_cons_iff.mp h
  obtain ⟨xs, last, rfl, hxs, hlast⟩ := List.map_eq_append_iff.mp hrest
  obtain ⟨u, rfl, hu⟩ := List.map_eq_singleton_iff.mp hlast
  exact ⟨t, xs, u, rfl, ht, hxs, hu⟩

end Sense

namespace Grammar

/-- **Tokens read wherever they stand**: the tokens before the rest can be replaced by others with
the same sense, and the rest by any other. -/
def ReadsAnywhere (ts rest : List Token) (R : List Token → List Token → Prop) : Prop :=
  ∃ xs, ts = xs ++ rest ∧ ∀ {ys : List Token} vs, ys.map Token.sense = xs.map Token.sense →
    R (ys ++ vs) vs

theorem OperatorAt.transport {ts us : List Token} {op : Operator} (h : OperatorAt ts op us) :
    ReadsAnywhere ts us (OperatorAt · op ·) := by
  cases h with
  | @symbol t _ us ht =>
    refine ⟨[t], rfl, fun vs hxs => ?_⟩
    obtain ⟨t', rfl, ht'⟩ := List.map_eq_singleton_iff.mp hxs
    exact .symbol ((kind_of_sense_eq ht').trans ht)
  | @notIn t u us ht hu =>
    refine ⟨[t, u], rfl, fun vs hxs => ?_⟩
    obtain ⟨t', _, rfl, ht', hrest⟩ := List.map_eq_cons_iff.mp hxs
    obtain ⟨u', rfl, hu'⟩ := List.map_eq_singleton_iff.mp hrest
    exact .notIn ((kind_of_sense_eq ht').trans ht) ((kind_of_sense_eq hu').trans hu)

theorem ItemsAt.transport {ts us : List Token} {ls : List Literal} (h : ItemsAt ts ls us) :
    ReadsAnywhere ts us fun ts us =>
      ∃ ls' : List Literal, ls'.map Literal.value = ls.map Literal.value ∧ ItemsAt ts ls' us := by
  induction h with
  | none =>
    refine ⟨[], rfl, fun vs hxs => ?_⟩
    obtain rfl := List.map_eq_nil_iff.mp hxs
    exact ⟨[], rfl, .none⟩
  | @last t us ht =>
    refine ⟨[t], rfl, fun vs hxs => ?_⟩
    obtain ⟨t', rfl, ht'⟩ := List.map_eq_singleton_iff.mp hxs
    have hliteral : t'.kind.isLiteral = true := (kind_of_sense_eq ht').symm ▸ ht
    exact ⟨[t'.written], congrArg ([·]) (value_written_of_sense_eq ht'), .last hliteral⟩
  | @more t c ts us ls ht hc _ ih =>
    obtain ⟨xs, rfl, ih⟩ := ih
    refine ⟨t :: c :: xs, rfl, fun vs hxs => ?_⟩
    obtain ⟨t', _, rfl, ht', hrest⟩ := List.map_eq_cons_iff.mp hxs
    obtain ⟨c', xs', rfl, hc', hrest⟩ := List.map_eq_cons_iff.mp hrest
    obtain ⟨ls', hls, hat⟩ := ih vs hrest
    have hliteral : t'.kind.isLiteral = true := (kind_of_sense_eq ht').symm ▸ ht
    refine ⟨t'.written :: ls', ?_, .more hliteral ((kind_of_sense_eq hc').trans hc) hat⟩
    rw [List.map_cons, List.map_cons, hls, value_written_of_sense_eq ht']

theorem OperandAt.transport {ts us : List Token} {v : Operand} (h : OperandAt ts v us) :
    ReadsAnywhere ts us fun ts us => ∃ v' : Operand, v'.bare = v.bare ∧ OperandAt ts v' us := by
  cases h with
  | @literal t us ht =>
    refine ⟨[t], rfl, fun vs hxs => ?_⟩
    obtain ⟨t', rfl, ht'⟩ := List.map_eq_singleton_iff.mp hxs
    have hliteral : t'.kind.isLiteral = true := (kind_of_sense_eq ht').symm ▸ ht
    refine ⟨.literal t'.written, ?_, .literal hliteral⟩
    exact congrArg (fun v => Operand.literal ⟨v, 0⟩) (value_written_of_sense_eq ht')
  | @name t us ht =>
    refine ⟨[t], rfl, fun vs hxs => ?_⟩
    obtain ⟨t', rfl, ht'⟩ := List.map_eq_singleton_iff.mp hxs
    refine ⟨.name t'.writtenPath, ?_, .name ((kind_of_sense_eq ht').trans ht)⟩
    exact congrArg (fun segments => Operand.name ⟨segments, 0⟩) (segments_of_sense_eq ht' ht)
  | @list o c ts us ls round ho hs hc =>
    obtain ⟨xs, rfl, hat⟩ := hs.transport
    refine ⟨o :: (xs ++ [c]), by simp, fun vs hxs => ?_⟩
    rw [List.map_cons, List.map_append, List.map_singleton] at hxs
    obtain ⟨o', xs', c', rfl, ho', hxs', hc'⟩ := exists_enclosed_of_map hxs
    obtain ⟨ls', hls, hat⟩ := hat (c' :: vs) hxs'
    refine ⟨.list ls' o'.offset, bare_list_of_values_eq hls, ?_⟩
    rw [List.cons_append, List.append_assoc]
    exact .list round ((kind_of_sense_eq ho').trans ho) hat ((kind_of_sense_eq hc').trans hc)

theorem ComparisonAt.transport {ts us : List Token} {c : Comparison} (h : ComparisonAt ts c us) :
    ReadsAnywhere ts us fun ts us => ∃ c' : Comparison, c'.bare = c.bare
      ∧ ComparisonAt ts c' us := by
  obtain ⟨hname, hop, hv⟩ := h
  rename_i t ts us op v
  obtain ⟨ops, rfl, hops⟩ := hop.transport
  obtain ⟨vals, rfl, hvals⟩ := hv.transport
  refine ⟨t :: (ops ++ vals), by simp, fun vs hxs => ?_⟩
  obtain ⟨t', _, rfl, ht', hrest⟩ := List.map_eq_cons_iff.mp hxs
  rw [List.map_append] at hrest
  obtain ⟨ops', vals', rfl, hops', hvals'⟩ := List.map_eq_append_iff.mp hrest
  obtain ⟨v', hbare, hv'⟩ := hvals vs hvals'
  refine ⟨⟨t'.writtenPath, op, v', t'.offset⟩, ?_, ?_⟩
  · unfold Comparison.bare NamePath.bare
    rw [hbare, segments_of_sense_eq ht' hname]
  · rw [List.cons_append, List.append_assoc]
    exact .mk ((kind_of_sense_eq ht').trans hname) (hops _ hops') hv'

/-- The phrase with every offset zero. -/
def Phrase.bare : Phrase → Phrase
  | .links op left => .links op left.bare
  | p => p

/-- What bare phrases determine. -/
theorem Phrase.eq_of_bare_eq_negation {p : Phrase} (h : p.bare = .negation) : p = .negation := by
  cases p with
  | negation => rfl
  | chain _ => exact nomatch h
  | links _ _ => exact nomatch h

theorem Phrase.eq_of_bare_eq_chain {p : Phrase} {op : Connective} (h : p.bare = .chain op) :
    p = .chain op := by
  cases p with
  | negation => exact nomatch h
  | chain _ => exact h
  | links _ _ => exact nomatch h

theorem Phrase.exists_of_bare_eq_links {p : Phrase} {op : Connective} {left : Expr}
    (h : p.bare = .links op left) : ∃ left' : Expr, left'.bare = left ∧ p = .links op left' := by
  cases p with
  | negation => exact nomatch h
  | chain _ => exact nomatch h
  | links op' left' =>
    obtain ⟨rfl, hleft⟩ := Phrase.links.inj h
    exact ⟨left', hleft, rfl⟩

/-- **A phrase does not depend on what is around it**: tokens with the same sense are the
same phrase in front of any others, with a tree that is the same but for offsets. The
induction is on the derivation. -/
theorem Derives.transport {p : Phrase} {n k : Nat} {ts us : List Token} {e : Expr}
    (h : Derives p n k ts e us) :
    ReadsAnywhere ts us fun ts us => ∀ p' : Phrase, p'.bare = p.bare →
      ∃ e' : Expr, e'.bare = e.bare ∧ Derives p' n k ts e' us := by
  induction h with
  | comparison h =>
    obtain ⟨xs, rfl, hmoved⟩ := h.transport
    refine ⟨xs, rfl, fun vs hxs p' hp => ?_⟩
    obtain rfl := Phrase.eq_of_bare_eq_negation hp
    obtain ⟨c', hbare, hc'⟩ := hmoved vs hxs
    exact ⟨.comparison c', congrArg Expr.comparison hbare, .comparison hc'⟩
  | @not n k t ts us e ht h ih =>
    obtain ⟨xs, rfl, ih⟩ := ih
    refine ⟨t :: xs, rfl, fun vs hxs p' hp => ?_⟩
    obtain rfl := Phrase.eq_of_bare_eq_negation hp
    obtain ⟨t', xs', rfl, ht', hxs⟩ := List.map_eq_cons_iff.mp hxs
    obtain ⟨e', hbare, h⟩ := ih vs hxs _ rfl
    refine ⟨.not e' t'.offset, ?_, .not ((kind_of_sense_eq ht').trans ht) h⟩
    exact congrArg (Expr.not · 0) hbare
  | @group n k o c ts us e ho h hc ih =>
    obtain ⟨xs, rfl, ih⟩ := ih
    refine ⟨o :: (xs ++ [c]), by simp, fun vs hxs p' hp => ?_⟩
    obtain rfl := Phrase.eq_of_bare_eq_negation hp
    rw [List.map_cons, List.map_append, List.map_singleton] at hxs
    obtain ⟨o', xs', c', rfl, ho', hxs', hc'⟩ := exists_enclosed_of_map hxs
    obtain ⟨e', hbare, h⟩ := ih (c' :: vs) hxs' _ rfl
    refine ⟨e', hbare, ?_⟩
    rw [List.cons_append, List.append_assoc]
    exact .group ((kind_of_sense_eq ho').trans ho) h ((kind_of_sense_eq hc').trans hc)
  | @chain m n j k op ts us vs a e h hs ih ihs =>
    obtain ⟨xs, rfl, ih⟩ := ih
    obtain ⟨ys, rfl, ihs⟩ := ihs
    refine ⟨xs ++ ys, (List.append_assoc _ _ _).symm, fun ws hxs p' hp => ?_⟩
    obtain rfl := Phrase.eq_of_bare_eq_chain hp
    rw [List.map_append] at hxs
    obtain ⟨xs', ys', rfl, hxs', hys'⟩ := List.map_eq_append_iff.mp hxs
    obtain ⟨a', hbarea, h⟩ := ih (ys' ++ ws) hxs' _ rfl
    have hlinks : (Phrase.links op a').bare = (Phrase.links op a).bare :=
      congrArg (Phrase.links op) hbarea
    obtain ⟨e', hbare, hs⟩ := ihs ws hys' _ hlinks
    refine ⟨e', hbare, ?_⟩
    rw [List.append_assoc]
    exact .chain h hs
  | @done op us a =>
    refine ⟨[], rfl, fun vs hxs p' hp => ?_⟩
    obtain ⟨a', hbare, rfl⟩ := Phrase.exists_of_bare_eq_links hp
    obtain rfl := List.map_eq_nil_iff.mp hxs
    exact ⟨a', hbare, .done⟩
  | @link m n j k op t ts us vs a b e ht h hs ih ihs =>
    obtain ⟨xs, rfl, ih⟩ := ih
    obtain ⟨ys, rfl, ihs⟩ := ihs
    refine ⟨t :: (xs ++ ys), by simp, fun ws hxs p' hp => ?_⟩
    obtain ⟨a', hbarea, rfl⟩ := Phrase.exists_of_bare_eq_links hp
    obtain ⟨t', _, rfl, ht', hrest⟩ := List.map_eq_cons_iff.mp hxs
    rw [List.map_append] at hrest
    obtain ⟨xs', ys', rfl, hxs', hys'⟩ := List.map_eq_append_iff.mp hrest
    obtain ⟨b', hbareb, h⟩ := ih (ys' ++ ws) hxs' _ rfl
    have hlinks : (Phrase.links op (.logical op a' b')).bare
        = (Phrase.links op (.logical op a b)).bare := by
      show Phrase.links op (.logical op a'.bare b'.bare) = .links op (.logical op a.bare b.bare)
      rw [hbarea, hbareb]
    obtain ⟨e', hbare, hs⟩ := ihs ws hys' _ hlinks
    refine ⟨e', hbare, ?_⟩
    rw [List.cons_append, List.append_assoc]
    exact .link ((kind_of_sense_eq ht').trans ht) h hs

end Grammar

/-! ## Texts that write trees -/

/-- **A text writes a tree**: its tokens are legal, and the grammar derives the tree from them
with this nesting and this number of comparisons. -/
def Writes (q : String) (nesting terms : Nat) (e : Expr) : Prop :=
  ∃ ts : List Token, tokenize q = ts.map .ok ∧ (∀ t ∈ ts, t.Legal) ∧ IsQuery nesting terms ts e

/-- **How deep a query nests** and how many comparisons it has. -/
def Measures (q : String) (nesting terms : Nat) : Prop := ∃ e : Expr, Writes q nesting terms e

/-- What is read is written by the text. -/
theorem exists_writes_of_parse {q : String} {e : Expr} (h : parse q = .ok e) :
    ∃ n k, Writes q n k e := by
  obtain ⟨ts, n, hts, hquery, -, -, hproper⟩ := exists_query_of_parse h
  exact ⟨n, _, ts, hts, fun t ht => (hproper t ht).1, hquery⟩

/-- **A text writes one tree**, and has one nesting and one number of comparisons. -/
theorem Writes.unique {q : String} {n n' k k' : Nat} {e e' : Expr} (h : Writes q n k e)
    (h' : Writes q n' k' e') : n = n' ∧ k = k' ∧ e = e' := by
  obtain ⟨ts, hts, -, hquery⟩ := h
  obtain ⟨ts', hts', -, hquery'⟩ := h'
  obtain rfl : ts = ts' := eq_of_map_ok_eq (hts.symm.trans hts')
  exact hquery.unique hquery'

/-- **A text is read as the tree that it writes** exactly if the limits are kept. -/
theorem Writes.parse_eq_ok_iff {q : String} {n k : Nat} {e : Expr} (h : Writes q n k e) :
    parse q = .ok e ↔ n ≤ nestingLimit ∧ k ≤ termLimit := by
  obtain ⟨ts, hts, hlegal, hquery⟩ := h
  rw [parse, hts, parseTokens_eq_ok_iff (Lexer.endsOnce_of_tokensFrom hts).1]
  constructor
  · rintro ⟨⟨n', k', hquery', hn, hk⟩, -⟩
    obtain ⟨rfl, rfl, -⟩ := hquery.unique hquery'
    exact ⟨hn, hk⟩
  · rintro ⟨hn, hk⟩
    exact ⟨⟨n, k, hquery, hn, hk⟩, hlegal⟩

/-- A query that is read keeps the limits. -/
theorem Measures.limits_of_parse {q : String} {n k : Nat} {e : Expr} (h : Measures q n k)
    (hq : parse q = .ok e) : n ≤ nestingLimit ∧ k ≤ termLimit := by
  obtain ⟨e', hwrites⟩ := h
  obtain ⟨n', k', hwrites'⟩ := exists_writes_of_parse hq
  obtain ⟨-, -, rfl⟩ := hwrites.unique hwrites'
  exact hwrites.parse_eq_ok_iff.mp hq

namespace Lexer

/-- **Characters that are a term**, whatever follows them: they spell legal tokens, which are a
negation of the grammar. -/
def IsTerm (cs : List Char) (nesting terms : Nat) (e : Expr) : Prop :=
  ∃ contents,
    Spells (fun _ => True) cs contents ∧ ∀ {xs : List Token}, xs.map Token.content = contents →
    (∀ t ∈ xs, t.Legal) ∧ ∀ vs, ∃ e' : Expr, e'.bare = e.bare
      ∧ Derives .negation nesting terms (xs ++ vs) e' vs

variable {m n j k : Nat} {e a b : Expr} {cs ds : List Char}

/-- **A query in parentheses is a term**, one level deeper. -/
theorem isTerm_of_writes {q : String} (h : Writes q n k e) :
    IsTerm (['('] ++ (q.toList ++ [')'])) (n + 1) k e := by
  obtain ⟨ts, hts, hlegal, stop, hstop, hd⟩ := h
  obtain ⟨xs, rfl, hmoved⟩ := hd.transport
  have hspells : Spells (fun _ => True) (q.toList ++ [')'])
      (xs.map Token.content ++ [(.rightParen, ")")]) :=
    (spells_of_tokensFrom 0 q.toList hstop hts).append (spells_single (by decide) fun _ => rfl)
      fun rest _ => ⟨rest, rfl⟩
  have hopen : Spells (fun _ => True) ['('] [(.leftParen, "(")] :=
    spells_single (by decide) fun _ => rfl
  refine ⟨(.leftParen, "(") :: (xs.map Token.content ++ [(.rightParen, ")")]),
    hopen.append hspells fun _ _ => trivial, fun hall => ?_⟩
  -- the tokens are a parenthesis, those of the query and a parenthesis
  obtain ⟨o, ys, c, rfl, ho, hys, hc⟩ := exists_enclosed_of_map hall
  have hsenses := senses_of_contents_eq hys
  obtain ⟨hleft, -⟩ := content_eq_iff.mp ho
  obtain ⟨hright, -⟩ := content_eq_iff.mp hc
  refine ⟨?_, fun vs => ?_⟩
  · have hlegals : ∀ t ∈ ys, t.Legal :=
      forall_legal_of_senses_eq (fun t ht => hlegal t (List.mem_append_left _ ht)) hsenses
    refine List.forall_mem_cons.mpr ⟨Token.legal_of_kind hleft rfl, ?_⟩
    refine List.forall_mem_append.mpr ⟨hlegals, List.forall_mem_singleton.mpr ?_⟩
    exact Token.legal_of_kind hright rfl
  · obtain ⟨e', hbare, hd⟩ := hmoved (c :: vs) hsenses _ rfl
    refine ⟨e', hbare, ?_⟩
    rw [List.cons_append, List.append_assoc]
    exact .group hleft hd hright

/-- **A term after a negation is a term**, one level deeper. -/
theorem IsTerm.not (h : IsTerm cs n k e) :
    IsTerm (("not".toList ++ [' ']) ++ cs) (n + 1) k (.not e 0) := by
  obtain ⟨contents, hspells, hreads⟩ := h
  have hnot : Spells (fun _ => True) ("not".toList ++ [' ']) [(.not, "not")] :=
    spells_keyword (by decide) (by decide) rfl rfl
  refine ⟨(.not, "not") :: contents, hnot.append hspells fun _ _ => trivial, fun hxs => ?_⟩
  obtain ⟨t, xs, rfl, ht, hxs⟩ := List.map_eq_cons_iff.mp hxs
  obtain ⟨hkind, -⟩ := content_eq_iff.mp ht
  obtain ⟨hlegal, hreads⟩ := hreads hxs
  refine ⟨List.forall_mem_cons.mpr ⟨Token.legal_of_kind hkind rfl, hlegal⟩, fun vs => ?_⟩
  obtain ⟨e', hbare, hd⟩ := hreads vs
  exact ⟨.not e' t.offset, congrArg (Expr.not · 0) hbare, .not hkind hd⟩

/-- A text whose tokens derive a tree writes it. -/
theorem writes_of_spells {q : String} {contents : List (TokenKind × String)}
    (hspells : Spells (fun _ => True) q.toList contents)
    (hreads : ∀ {xs : List Token}, xs.map Token.content = contents →
      (∀ t ∈ xs, t.Legal) ∧ ∀ vs, ∃ e' : Expr,
        e'.bare = e.bare ∧ Derives (.chain .or) n k (xs ++ vs) e' vs) :
    ∃ e' : Expr, e'.bare = e.bare ∧ Writes q n k e' := by
  obtain ⟨ts, stop, hts, hcontents⟩ := hspells.tokens trivial 0
  obtain ⟨hlegal, hreads⟩ := hreads hcontents
  obtain ⟨e', hbare, hd⟩ := hreads [Token.endOfInput stop]
  refine ⟨e', hbare, ts ++ [Token.endOfInput stop], hts, ?_, _, rfl, hd⟩
  refine List.forall_mem_append.mpr ⟨hlegal, List.forall_mem_singleton.mpr ?_⟩
  exact Token.legal_of_kind rfl rfl

/-- **A text that is a term** writes its tree. -/
theorem IsTerm.writes {q : String} (h : IsTerm q.toList n k e) :
    ∃ e' : Expr, e'.bare = e.bare ∧ Writes q n k e' := by
  obtain ⟨contents, hspells, hreads⟩ := h
  refine writes_of_spells hspells fun hxs => ?_
  obtain ⟨hlegal, hreads⟩ := hreads hxs
  refine ⟨hlegal, fun vs => ?_⟩
  obtain ⟨e', hbare, hd⟩ := hreads vs
  exact ⟨e', hbare, derives_alone hd⟩

/-- **Two terms with a connective between them** write the trees joined. -/
theorem IsTerm.join (op : Connective) {q : String} (ha : IsTerm cs m j a) (hb : IsTerm ds n k b)
    (hq : q.toList = cs ++ ([' '] ++ ((op.keyword.toList ++ [' ']) ++ ds))) :
    ∃ e' : Expr, e'.bare = (Expr.logical op a b).bare ∧ Writes q (max m n) (j + k) e' := by
  obtain ⟨as, hspellsa, hreadsa⟩ := ha
  obtain ⟨bs, hspellsb, hreadsb⟩ := hb
  have hkeyword : Spells (fun _ => True) (op.keyword.toList ++ [' ']) [(op.kind, op.keyword)] := by
    cases op with
    | and => exact spells_keyword (by decide) (by decide) rfl rfl
    | or => exact spells_keyword (by decide) (by decide) rfl rfl
  have hright : Spells (fun _ => True) ([' '] ++ ((op.keyword.toList ++ [' ']) ++ ds))
      ((op.kind, op.keyword) :: bs) :=
    (spells_blank (by decide)).append (hkeyword.append hspellsb fun _ _ => trivial) fun _ _ =>
      trivial
  refine writes_of_spells (hq ▸ hspellsa.append hright fun _ _ => trivial) fun hall => ?_
  obtain ⟨xs, ts, rfl, hxs, hrest⟩ := List.map_eq_append_iff.mp hall
  obtain ⟨t, ys, rfl, ht, hys⟩ := List.map_eq_cons_iff.mp hrest
  obtain ⟨hkind, -⟩ := content_eq_iff.mp ht
  obtain ⟨hlegala, hreadsa⟩ := hreadsa hxs
  obtain ⟨hlegalb, hreadsb⟩ := hreadsb hys
  refine ⟨?_, fun vs => ?_⟩
  · refine List.forall_mem_append.mpr ⟨hlegala, List.forall_mem_cons.mpr ⟨?_, hlegalb⟩⟩
    exact Token.legal_of_connective hkind
  · obtain ⟨a', hbarea, hda⟩ := hreadsa (t :: (ys ++ vs))
    obtain ⟨b', hbareb, hdb⟩ := hreadsb vs
    refine ⟨.logical op a' b', ?_, ?_⟩
    · unfold Expr.bare
      rw [hbarea, hbareb]
    · rw [List.append_assoc, List.cons_append]
      exact derives_logical hda hkind hdb

end Lexer

variable {q r : String} {m n j k : Nat} {a b : Expr}

/-- **Two queries in parentheses with a connective between them** write the trees joined, one
level deeper than the deeper one. -/
theorem Writes.join (ha : Writes q m j a) (hb : Writes r n k b) (op : Connective) :
    ∃ e : Expr, e.bare = (Expr.logical op a b).bare
      ∧ Writes ("(" ++ q ++ ") " ++ op.keyword ++ " (" ++ r ++ ")") (max m n + 1) (j + k) e := by
  rw [← Nat.add_max_add_right]
  refine (Lexer.isTerm_of_writes ha).join op (Lexer.isTerm_of_writes hb) ?_
  simp

/-- **A query in parentheses after a negation** writes the tree negated, two levels deeper. -/
theorem Writes.negate (ha : Writes q n k a) :
    ∃ e : Expr, e.bare = (Expr.not a 0).bare ∧ Writes ("not (" ++ q ++ ")") (n + 2) k e := by
  refine Lexer.IsTerm.writes ?_
  have hterm := (Lexer.isTerm_of_writes ha).not
  simpa using hterm

end RecordQuery
