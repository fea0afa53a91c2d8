import RecordQuery.Proofs.Query.Composition

/-!
# Offsets as a source map

Every name, negation and literal of a tree and every list keeps an offset. Together these are a
map of the source: a `Mark` is an offset with what stands there, and the marks of a tree are
listed in the order of the source (`Expr.marks`). In a query that is read as a tree, **what a mark
says stands at its offset, and the offsets increase** (`parse_marks`).

A token has a mark too, and the marks of a tree are some of those of the tokens it was read from,
in the same order (`Derives.marks`). That is one induction over the grammar, and it leaves two
facts about the lexer to be shown: tokens follow one another (`tokensFrom_placed`), and a token is
cut off where its offset says (`exists_cut_of_mem`).
-/

namespace RecordQuery

open Grammar

/-! ## Where tokens stand -/

namespace Lexer

/-- The offset of an item of a text. -/
def itemOffset : Except LexError Token → Nat
  | .ok t => t.offset
  | .error e => e.offset

/-- **An item follows another one**: it stands behind the start of it and, if that is a token, not
before the end of its text. -/
def Follows (x y : Except LexError Token) : Prop :=
  itemOffset x < itemOffset y ∧ ∀ t, x = .ok t → t.offset + t.text.length ≤ itemOffset y

/-! ### The characters of a token -/

section Characters

variable {source : List Char} {text : String}

/-- A name is a word. -/
theorem Denotes.isWord (h : Denotes source .name text) : IsWord source := by
  cases h with
  | name hword => exact hword
  | keyword hkey => simp [keywords] at hkey
  | bracket hc => simp [brackets] at hc

/-- A negation is its keyword. -/
theorem Denotes.lower_eq_not (h : Denotes source .not text) :
    source.map Char.toLower = "not".toList := by
  cases h with
  | keyword hkey hcase =>
    obtain rfl : _ = "not" := by simpa [keywords] using hkey
    exact hcase
  | bracket hc => simp [brackets] at hc

/-- A string literal begins with a quote. -/
theorem Denotes.exists_quote (h : Denotes source .string text) :
    ∃ c inner, source = c :: inner ∧ (c = '"' ∨ c = '\'') := by
  cases h with
  | keyword hkey => simp [keywords] at hkey
  | string hquote => exact ⟨_, _, rfl, hquote⟩
  | bracket hc => simp [brackets] at hc

/-- The opening bracket of a list is square or round. -/
theorem Denotes.exists_bracket {round : Bool} (h : Denotes source (openingKind round) text) :
    ∃ c, source = [c] ∧ (c = '[' ∨ c = '(') := by
  cases round with
  | false =>
    have h : Denotes source .leftBracket text := h
    cases h with
    | keyword hkey => simp [keywords] at hkey
    | bracket hc => exact ⟨_, rfl, Or.inl (by simpa [brackets] using hc)⟩
  | true =>
    have h : Denotes source .leftParen text := h
    cases h with
    | keyword hkey => simp [keywords] at hkey
    | bracket hc => exact ⟨_, rfl, Or.inr (by simpa [brackets] using hc)⟩

end Characters

/-! ### The places of tokens -/

/-- **The text of a token is not longer than its source.** -/
theorem length_text_le {c : Char} {rest : List Char} {l : Lexeme} (h : lexeme c rest = .ok l) :
    l.text.length ≤ l.more + 1 := by
  obtain ⟨hmore, hdenotes⟩ := takes_of_lexeme h
  by_cases hkind : l.kind = .string
  · rw [hkind] at hdenotes
    obtain ⟨_, _, hcons, hquote⟩ := hdenotes.exists_quote
    obtain ⟨rfl, -⟩ := List.cons.inj hcons
    have hstring : lexeme c rest = string c rest := by rcases hquote with rfl | rfl <;> rfl
    rw [hstring] at h
    obtain ⟨body, text, after, -, hencodes, rfl⟩ :=
      (string_eq_ok_iff (ne_backslash_of_quote hquote)).mp h
    exact hencodes.length_le.trans (Nat.le_add_right _ 2)
  · have htext : l.text = c :: rest.take l.more := by
      simpa using congrArg String.toList (hdenotes.text_eq hkind)
    rw [htext, List.length_cons, List.length_take_of_le hmore]

/-- **The items of a text follow one another**, and they stand inside it. The
induction follows the cuts. -/
theorem tokensFrom_placed (offset : Nat) (cs : List Char) :
    (tokensFrom offset cs).Pairwise Follows
      ∧ ∀ x ∈ tokensFrom offset cs, offset ≤ itemOffset x ∧ itemOffset x ≤ offset + cs.length := by
  induction offset, cs using tokensFrom.induct with
  | case1 offset cs hnil =>
    have hlength := (List.takeWhile_sublist Text.isBlank (l := cs)).length_le
    rw [tokensFrom_eq, hnil]
    refine ⟨List.pairwise_singleton _ _, List.forall_mem_singleton.mpr ⟨Nat.le_add_right _ _, ?_⟩⟩
    show offset + _ ≤ _
    omega
  | case2 offset cs c rest hcons f hf =>
    have hlength := congrArg List.length (Text.append_of_trimLeft hcons).1
    rw [List.length_append, List.length_cons] at hlength
    have hshift : f.shift ≤ rest.length := shift_le_of_lexeme hf
    rw [tokensFrom_eq, hcons]
    simp only [hf]
    refine ⟨List.pairwise_singleton _ _, List.forall_mem_singleton.mpr ⟨?_, ?_⟩⟩
    · show offset ≤ offset + _ + f.shift
      omega
    · show offset + _ + f.shift ≤ _
      omega
  | case3 offset cs start c rest hcons l hl ih =>
    have hlength := congrArg List.length (Text.append_of_trimLeft hcons).1
    rw [List.length_append, List.length_cons] at hlength
    obtain ⟨hmore, -⟩ := takes_of_lexeme hl
    have hstart : offset + (cs.takeWhile Text.isBlank).length = start := rfl
    obtain ⟨hpairwise, hbounds⟩ := ih
    rw [List.length_drop] at hbounds
    rw [tokensFrom_eq, hcons]
    simp only [hl, hstart]
    refine ⟨List.pairwise_cons.mpr ⟨fun x hx => ⟨?_, ?_⟩, hpairwise⟩,
      List.forall_mem_cons.mpr ⟨⟨?_, ?_⟩, ?_⟩⟩
    · have := hbounds x hx
      show start < itemOffset x
      omega
    · rintro t ht
      obtain rfl := Except.ok.inj ht
      have hbound := hbounds x hx
      have htext := length_text_le hl
      simp only [String.length_ofList]
      omega
    · show offset ≤ start
      omega
    · show start ≤ _
      omega
    · intro x hx
      have := hbounds x hx
      omega

/-- **A token is cut off where its offset says.** The tokens in front of it are the same in front
of any other text that ends them alike. The induction follows the cuts. -/
theorem exists_cut_of_mem {offset : Nat} {cs : List Char} {t : Token}
    (h : .ok t ∈ tokensFrom offset cs) (hkind : t.kind ≠ .endOfInput) :
    ∃ (front : List Token) (before : List Char) (c : Char) (rest : List Char) (l : Lexeme),
      cs = before ++ c :: rest ∧ Text.isBlank c = false ∧ lexeme c rest = .ok l
        ∧ t = ⟨l.kind, String.ofList l.text, offset + before.length⟩
        ∧ tokensFrom offset cs = front.map .ok ++ tokensFrom t.offset (c :: rest)
        ∧ ∀ r', (∀ mid, EndsAs (mid ++ c :: rest) (mid ++ r')) →
          tokensFrom offset (before ++ r') = front.map .ok ++ tokensFrom t.offset r' := by
  induction offset, cs using tokensFrom.induct with
  | case1 offset cs hnil =>
    rw [tokensFrom_eq, hnil] at h
    obtain rfl := Except.ok.inj (List.mem_singleton.mp h)
    exact absurd rfl hkind
  | case2 offset cs c rest hcons f hf =>
    rw [tokensFrom_eq, hcons] at h
    simp only [hf] at h
    cases List.mem_singleton.mp h
  | case3 offset cs start c rest hcons l hl ih =>
    obtain ⟨hcs, hc⟩ := Text.append_of_trimLeft hcons
    have hgap := List.all_eq_true.mp (List.all_takeWhile (p := Text.isBlank) (l := cs))
    have hstart : start = offset + (cs.takeWhile Text.isBlank).length := rfl
    generalize cs.takeWhile Text.isBlank = gap at hcs hgap hstart
    subst hcs
    rw [tokensFrom_append_blanks hgap, ← hstart] at h ⊢
    rw [tokensFrom_cons hc, hl] at h
    rcases List.mem_cons.mp h with h | h
    · obtain rfl := Except.ok.inj h
      refine ⟨[], gap, c, rest, l, rfl, hc, hl, hstart ▸ rfl, rfl, fun r' _ => ?_⟩
      rw [tokensFrom_append_blanks hgap, ← hstart]
      rfl
    · obtain ⟨hmore, -⟩ := takes_of_lexeme hl
      obtain ⟨front, before, d, rest', l', hrest, hd, hl', ht, htokens, hmoved⟩ := ih h
      have hlength : (rest.take l.more).length = l.more := List.length_take_of_le hmore
      refine ⟨⟨l.kind, String.ofList l.text, start⟩ :: front,
        gap ++ c :: rest.take l.more ++ before, d, rest', l', ?_, hd, hl', ?_, ?_,
        fun r' hr' => ?_⟩
      · rw [List.append_assoc, ← hrest, List.append_assoc, List.cons_append, List.take_append_drop]
      · rw [ht, hstart]
        simp only [List.length_append, List.length_cons, hlength, Nat.add_assoc]
      · rw [tokensFrom_cons hc, hl]
        exact congrArg _ htokens
      · rw [List.append_assoc, List.append_assoc, tokensFrom_append_blanks hgap, ← hstart,
          List.cons_append, tokensFrom_cons hc]
        have hsame : lexeme c (rest.take l.more ++ (before ++ r')) = .ok l := by
          rw [← List.take_append_drop l.more rest, hrest] at hl
          exact lexeme_of_endsAs (hr' before) hl hlength.symm
        rw [hsame]
        show .ok _ :: tokensFrom _ ((rest.take l.more ++ (before ++ r')).drop l.more) = _
        rw [List.drop_left' hlength, hmoved r' hr']
        rfl

end Lexer

/-! ## Marks -/

/-- **What stands at an offset.** -/
inductive Feature where
  /-- A path of names. -/
  | path (segments : List String)
  /-- A negation. -/
  | negation
  /-- The opening bracket of a list. -/
  | list
  /-- A literal. -/
  | literal (v : LiteralValue)
  deriving DecidableEq

/-- **An offset and what stands there.** -/
structure Mark where
  /-- The offset. -/
  offset : Nat
  /-- What stands there. -/
  feature : Feature
  deriving DecidableEq

/-- The mark of a literal. -/
def Literal.mark (l : Literal) : Mark := ⟨l.offset, .literal l.value⟩

/-- What stands at the offset of an operand. -/
def Operand.feature : Operand → Feature
  | .literal l => .literal l.value
  | .list _ _ => .list
  | .name path => .path path.segments

/-- The items of an operand that is a list. -/
def Operand.items : Operand → List Literal
  | .list items _ => items
  | _ => []

/-- The marks of an operand: a list stands before its items. -/
def Operand.marks (v : Operand) : List Mark := ⟨v.offset, v.feature⟩ :: v.items.map Literal.mark

namespace Expr

/-- **The marks of an expression** in the order of the source: a negation stands before its
operand, a comparison before the operand that its field is compared with, and the left of
two expressions first. -/
def marks : Expr → List Mark
  | .logical _ left right => left.marks ++ right.marks
  | .not operand offset => ⟨offset, .negation⟩ :: operand.marks
  | .comparison c => ⟨c.offset, .path c.field.segments⟩ :: c.value.marks

/-- An expression and the expressions in it. -/
def subtrees : Expr → List Expr
  | .logical op left right => .logical op left right :: (left.subtrees ++ right.subtrees)
  | .not operand offset => .not operand offset :: operand.subtrees
  | .comparison c => [.comparison c]

end Expr

/-- **Whether a mark is right about a query.** A path stands there in full: no word goes on with
it. A negation is written in any letter case. At a literal begins a token that denotes it. -/
def Mark.Stands (q : String) (m : Mark) : Prop :=
  match m.feature with
  | .path segments =>
    ∃ rest, q.toList.drop m.offset = (dotted segments).toList ++ rest ∧ Lexer.Stops rest
  | .negation =>
    ∃ word rest, q.toList.drop m.offset = word ++ rest ∧ word.map Char.toLower = "not".toList
  | .list => ∃ c rest, q.toList.drop m.offset = c :: rest ∧ (c = '[' ∨ c = '(')
  | .literal v => ∃ t items, tokenize (String.ofList (q.toList.drop m.offset)) = .ok t :: items
      ∧ t.kind.isLiteral = true ∧ t.Legal ∧ t.written = ⟨v, 0⟩

/-- The mark of a token: a sign or a connective has none. -/
def Token.mark? (t : Token) : Option Mark :=
  match t.kind with
  | .name => some ⟨t.offset, .path t.segments⟩
  | .not => some ⟨t.offset, .negation⟩
  | .leftParen | .leftBracket => some ⟨t.offset, .list⟩
  | kind => if kind.isLiteral then some t.written.mark else none

/-- A literal stands where its token does. -/
theorem Token.offset_written (t : Token) : t.written.offset = t.offset := by
  unfold written
  split <;> rfl

/-- A mark stands where its token does. -/
theorem Token.offset_of_mark? {t : Token} {m : Mark} (h : t.mark? = some m) :
    m.offset = t.offset := by
  unfold mark? at h
  split at h
  case h_5 =>
    split at h
    · rw [← Option.some.inj h]
      exact t.offset_written
    · cases h
  all_goals rw [← Option.some.inj h]

/-! ## The marks of what is read -/

namespace Grammar

theorem mark?_of_isLiteral {t : Token} (ht : t.kind.isLiteral = true) :
    t.mark? = some t.written.mark := by
  unfold Token.mark?
  split
  case h_5 => exact if_pos ht
  all_goals simp [*, TokenKind.isLiteral] at ht

theorem mark?_of_openingKind {t : Token} {round : Bool} (ht : t.kind = openingKind round) :
    t.mark? = some ⟨t.offset, .list⟩ := by
  unfold Token.mark?
  rw [ht]
  cases round <;> rfl

theorem mark?_of_name {t : Token} (ht : t.kind = .name) :
    t.mark? = some ⟨t.offset, .path t.segments⟩ := by
  unfold Token.mark?
  rw [ht]

theorem mark?_of_not {t : Token} (ht : t.kind = .not) : t.mark? = some ⟨t.offset, .negation⟩ := by
  unfold Token.mark?
  rw [ht]

/-- **Marks are read off tokens**: the tokens before the rest have marks, and these are some of
them. -/
def MarksAmong (ts rest : List Token) (before marks : List Mark) : Prop :=
  ∃ xs, ts = xs ++ rest ∧ marks.Sublist (before ++ xs.filterMap Token.mark?)

/-- Every mark is that of a token that is read. -/
theorem MarksAmong.exists_token {ts us : List Token} {marks : List Mark}
    (h : MarksAmong ts us [] marks) :
    ∃ xs, ts = xs ++ us ∧ ∀ m ∈ marks, ∃ t ∈ xs, t.mark? = some m := by
  obtain ⟨xs, rfl, hsub⟩ := h
  exact ⟨xs, rfl, fun m hm => List.mem_filterMap.mp (hsub.subset hm)⟩

/-- **Marks increase** when the tokens that they are read off follow one another. -/
theorem MarksAmong.pairwise {ts us : List Token} {marks : List Mark} (h : MarksAmong ts us [] marks)
    (hts : ts.Pairwise fun t u => Lexer.Follows (.ok t) (.ok u)) :
    marks.Pairwise fun m m' => m.offset < m'.offset := by
  obtain ⟨xs, rfl, hsub⟩ := h
  refine List.Pairwise.sublist hsub ((List.pairwise_append.mp hts).1.filterMap _ ?_)
  intro t u hfollows m hm m' hm'
  rw [Token.offset_of_mark? hm, Token.offset_of_mark? hm']
  exact hfollows.1

theorem ItemsAt.marks {ts us : List Token} {ls : List Literal} (h : ItemsAt ts ls us) :
    MarksAmong ts us [] (ls.map Literal.mark) := by
  induction h with
  | none => exact ⟨[], rfl, List.Sublist.refl _⟩
  | @last t us ht => exact ⟨[t], rfl, by simp [mark?_of_isLiteral ht]⟩
  | @more t c ts us ls ht hc _ ih =>
    obtain ⟨xs, rfl, hsub⟩ := ih
    refine ⟨t :: c :: xs, rfl, ?_⟩
    rw [List.nil_append] at hsub
    rw [List.nil_append, List.filterMap_cons_some (mark?_of_isLiteral ht), List.map_cons]
    refine List.Sublist.cons_cons _ (hsub.trans ?_)
    exact ((List.sublist_cons_self c xs).filterMap _)

theorem OperandAt.marks {ts us : List Token} {v : Operand} (h : OperandAt ts v us) :
    MarksAmong ts us [] v.marks := by
  cases h with
  | @literal t us ht =>
    have hoffset : t.written.mark = ⟨t.written.offset, .literal t.written.value⟩ := rfl
    exact ⟨[t], rfl, by simp [mark?_of_isLiteral ht, Operand.marks, Operand.items, Operand.offset,
      Operand.feature, hoffset]⟩
  | @name t us ht =>
    exact ⟨[t], rfl,
      by simp [mark?_of_name ht, Operand.marks, Operand.items, Operand.offset, Operand.feature,
        Token.writtenPath]⟩
  | @list o c ts us ls round ho hs hc =>
    obtain ⟨xs, rfl, hsub⟩ := hs.marks
    refine ⟨o :: (xs ++ [c]), by simp, ?_⟩
    rw [List.nil_append] at hsub
    rw [List.nil_append, List.filterMap_cons_some (mark?_of_openingKind ho)]
    refine List.Sublist.cons_cons _ (hsub.trans ?_)
    exact (List.sublist_append_left xs [c]).filterMap _

/-- The marks of a tree that a phrase goes on with. -/
def Phrase.marks : Phrase → List Mark
  | .links _ left => left.marks
  | _ => []

/-- A comparison stands where its field does. -/
theorem ComparisonAt.offset_eq {ts us : List Token} {c : Comparison} (h : ComparisonAt ts c us) :
    c.offset = c.field.offset := by
  cases h
  rfl

theorem ComparisonAt.marks {ts us : List Token} {c : Comparison} (h : ComparisonAt ts c us) :
    MarksAmong ts us [] (Expr.comparison c).marks := by
  obtain ⟨hname, hop, hv⟩ := h
  rename_i t ts us op v
  obtain ⟨ops, rfl⟩ := hop.suffix
  obtain ⟨xs, rfl, hsub⟩ := hv.marks
  refine ⟨t :: (ops ++ xs), by simp, ?_⟩
  rw [List.nil_append] at hsub
  rw [List.nil_append, List.filterMap_cons_some (mark?_of_name hname)]
  refine List.Sublist.cons_cons _ (hsub.trans ?_)
  exact (List.sublist_append_right ops xs).filterMap _

/-- **The marks of a tree are among those of its tokens.** The induction is on the derivation;
what a chain has read so far comes before the tokens that it goes on with. -/
theorem Derives.marks {p : Phrase} {n k : Nat} {ts us : List Token} {e : Expr}
    (h : Derives p n k ts e us) : MarksAmong ts us p.marks e.marks := by
  have hoperand : ∀ op : Connective, (Phrase.operandOf op).marks = [] :=
    fun op => by cases op <;> rfl
  induction h with
  | comparison h => exact h.marks
  | @not n k t ts us e ht h ih =>
    obtain ⟨xs, rfl, hsub⟩ := ih
    refine ⟨t :: xs, rfl, ?_⟩
    rw [List.filterMap_cons_some (mark?_of_not ht)]
    exact List.Sublist.cons_cons _ hsub
  | @group n k o c ts us e ho h hc ih =>
    obtain ⟨xs, rfl, hsub⟩ := ih
    refine ⟨o :: (xs ++ [c]), by simp, hsub.trans ?_⟩
    refine List.Sublist.append_left (List.Sublist.filterMap _ ?_) _
    exact (List.sublist_append_left xs [c]).trans (List.sublist_cons_self o _)
  | @chain m n j k op ts us vs a e h hs ih ihs =>
    obtain ⟨xs, rfl, hsub⟩ := ih
    obtain ⟨ys, rfl, hsubs⟩ := ihs
    refine ⟨xs ++ ys, (List.append_assoc _ _ _).symm, hsubs.trans ?_⟩
    rw [List.filterMap_append, ← List.append_assoc]
    rw [hoperand] at hsub
    exact List.Sublist.append_right hsub _
  | done => exact ⟨[], rfl, List.sublist_append_left _ _⟩
  | @link m n j k op t ts us vs a b e ht h hs ih ihs =>
    obtain ⟨xs, rfl, hsub⟩ := ih
    obtain ⟨ys, rfl, hsubs⟩ := ihs
    rw [hoperand, List.nil_append] at hsub
    refine ⟨t :: (xs ++ ys), by simp, hsubs.trans ?_⟩
    show ((a.marks ++ b.marks) ++ ys.filterMap Token.mark?).Sublist (a.marks ++ _)
    rw [List.append_assoc]
    refine List.Sublist.append_left ?_ _
    refine List.Sublist.trans ?_ ((List.sublist_cons_self t (xs ++ ys)).filterMap _)
    rw [List.filterMap_append]
    exact List.Sublist.append_right hsub _

/-- The comparisons of a tree that a phrase goes on with. -/
def Phrase.comparisons : Phrase → List Comparison
  | .links _ left => left.comparisons
  | _ => []

/-- **Every comparison of a tree has tokens of its own** among those that the tree was read from. -/
theorem Derives.exists_comparisonAt {p : Phrase} {n k : Nat} {ts us : List Token} {e : Expr}
    (h : Derives p n k ts e us) :
    ∀ c ∈ e.comparisons, c ∈ p.comparisons
      ∨ ∃ front own vs, ts = front ++ own ++ vs ∧ ComparisonAt (own ++ vs) c vs ∧ us <:+ vs := by
  have hoperand : ∀ op : Connective, (Phrase.operandOf op).comparisons = [] :=
    fun op => by cases op <;> rfl
  -- more tokens in front do not matter
  have hfront : ∀ {ts : List Token} {c : Comparison} {us : List Token} (xs : List Token),
      (∃ front own vs, ts = front ++ own ++ vs ∧ ComparisonAt (own ++ vs) c vs ∧ us <:+ vs) →
      ∃ front own vs, xs ++ ts = front ++ own ++ vs ∧ ComparisonAt (own ++ vs) c vs
        ∧ us <:+ vs := by
    rintro _ c us xs ⟨front, own, vs, rfl, hat, hus⟩
    exact ⟨xs ++ front, own, vs, by simp only [List.append_assoc], hat, hus⟩
  induction h with
  | comparison h =>
    intro c hc
    obtain rfl := List.mem_singleton.mp hc
    obtain ⟨own, rfl⟩ := h.suffix
    exact Or.inr ⟨[], own, _, rfl, h, List.suffix_rfl⟩
  | @not n k t ts us e ht h ih =>
    exact fun c hc => Or.inr (hfront [t] ((ih c hc).resolve_left List.not_mem_nil))
  | @group n k o close ts us e ho h hc ih =>
    intro c hc
    obtain ⟨front, own, vs, hts, hat, hus⟩ := (ih c hc).resolve_left List.not_mem_nil
    exact Or.inr (hfront [o] ⟨front, own, vs, hts, hat, (List.suffix_cons close us).trans hus⟩)
  | chain h hs ih ihs =>
    intro c hc
    rcases ihs c hc with hc | hat
    · obtain ⟨front, own, vs, hts, hat, hus⟩ := (ih c hc).resolve_left (by simp [hoperand])
      exact Or.inr ⟨front, own, vs, hts, hat, hs.suffix.trans hus⟩
    · obtain ⟨xs, rfl⟩ := h.suffix
      exact Or.inr (hfront xs hat)
  | done => exact fun c hc => Or.inl hc
  | @link m n j k op t ts us vs a b e ht h hs ih ihs =>
    intro c hc
    rcases ihs c hc with hc | hat
    · rcases List.mem_append.mp hc with hc | hc
      · exact Or.inl hc
      · obtain ⟨front, own, ws, hts, hat, hus⟩ := (ih c hc).resolve_left (by simp [hoperand])
        exact Or.inr (hfront [t] ⟨front, own, ws, hts, hat, hs.suffix.trans hus⟩)
    · obtain ⟨xs, rfl⟩ := h.suffix
      exact Or.inr (hfront (t :: xs) hat)

end Grammar

/-! ## The marks of a query -/

/-- **A token is cut off at its offset**: there begins its source, and what is cut off first
from there on is the token again. A source that is a word is the text of the token, and no
character goes on with it. -/
theorem Token.exists_source {q : String} {t : Token} (ht : .ok t ∈ tokenize q)
    (hkind : t.kind ≠ .endOfInput) :
    ∃ source rest items,
      q.toList.drop t.offset = source ++ rest ∧ Lexer.Denotes source t.kind t.text
      ∧ tokenize (String.ofList (source ++ rest)) = .ok { t with offset := 0 } :: items
      ∧ (Lexer.IsWord source → source = t.text.toList ∧ Lexer.Stops rest) := by
  obtain ⟨_, before, c, rest, l, hq, hc, hl, rfl, -, -⟩ := Lexer.exists_cut_of_mem ht hkind
  have hsource : c :: rest = c :: rest.take l.more ++ rest.drop l.more := by
    rw [List.cons_append, List.take_append_drop]
  refine ⟨_, rest.drop l.more, Lexer.tokensFrom (0 + (l.more + 1)) (rest.drop l.more), ?_,
    (Lexer.takes_of_lexeme hl).2, ?_, ?_⟩
  · show q.toList.drop (0 + before.length) = _
    rw [hq, Nat.zero_add, List.drop_left, ← hsource]
  · rw [← hsource, tokenize, String.toList_ofList, Lexer.tokensFrom_cons hc, hl]
  · rintro ⟨_, _, hcons, hstarts, -⟩
    obtain ⟨rfl, -⟩ := List.cons.inj hcons
    obtain ⟨hword, -, hstops⟩ := Lexer.stops_of_lexeme hstarts hl
    rw [String.toList_ofList]
    exact ⟨hword.symm, hstops⟩

/-- **What the mark of a token says stands there.** -/
theorem Token.stands_of_mark? {q : String} {t : Token} {m : Mark} (ht : .ok t ∈ tokenize q)
    (hlegal : t.Legal) (hm : t.mark? = some m) : m.Stands q := by
  have hkind : t.kind ≠ .endOfInput := by
    intro hkind
    simp [mark?, hkind, TokenKind.isLiteral] at hm
  obtain ⟨source, rest, items, hdrop, hdenotes, hcut, hword⟩ := Token.exists_source ht hkind
  have hlist : ∀ round : Bool, t.kind = openingKind round → Mark.Stands q ⟨t.offset, .list⟩ := by
    intro round hkind
    rw [hkind] at hdenotes
    obtain ⟨c, rfl, hbracket⟩ := hdenotes.exists_bracket
    exact ⟨c, rest, hdrop, hbracket⟩
  unfold mark? at hm
  split at hm
  · rename_i hname
    rw [hname] at hdenotes
    obtain ⟨htext, hstops⟩ := hword hdenotes.isWord
    obtain rfl := Option.some.inj hm
    exact ⟨rest, by rw [hdrop, htext, segments, dotted_splitPoints], hstops⟩
  · rename_i hnot
    rw [hnot] at hdenotes
    obtain rfl := Option.some.inj hm
    exact ⟨source, rest, hdrop, hdenotes.lower_eq_not⟩
  · obtain rfl := Option.some.inj hm
    exact hlist true ‹_›
  · obtain rfl := Option.some.inj hm
    exact hlist false ‹_›
  · split at hm
    · rename_i hliteral
      obtain rfl := Option.some.inj hm
      let t₀ : Token := { t with offset := 0 }
      have hsense₀ : t₀.sense = t.sense := rfl
      refine ⟨t₀, items, ?_, hliteral, hlegal.of_sense_eq hsense₀, ?_⟩
      · rw [← hcut, ← hdrop, Literal.mark, t.offset_written]
      · rw [← value_written_of_sense_eq hsense₀,
          ← show t₀.written.offset = 0 from t₀.offset_written]
    · cases hm

namespace Expr

/-- An expression has a mark at its offset, which is the first one. -/
theorem exists_marks_eq_cons (e : Expr) :
    ∃ feature rest, e.marks = ⟨e.offset, feature⟩ :: rest := by
  induction e with
  | logical op left right ihl ihr =>
    obtain ⟨feature, rest, hl⟩ := ihl
    exact ⟨feature, rest ++ right.marks, by rw [marks, hl]; rfl⟩
  | not operand offset ih => exact ⟨_, _, rfl⟩
  | comparison c => exact ⟨_, _, rfl⟩

/-- The marks of an expression in another one are some of its marks. -/
theorem marks_sublist_of_mem_subtrees {e x : Expr} (hx : x ∈ e.subtrees) :
    x.marks.Sublist e.marks := by
  induction e with
  | logical op left right ihl ihr =>
    rcases List.mem_cons.mp hx with rfl | hx
    · exact List.Sublist.refl _
    · rcases List.mem_append.mp hx with hx | hx
      · exact (ihl hx).trans (List.sublist_append_left _ _)
      · exact (ihr hx).trans (List.sublist_append_right _ _)
  | not operand offset ih =>
    rcases List.mem_cons.mp hx with rfl | hx
    · exact List.Sublist.refl _
    · exact (ih hx).trans (List.sublist_cons_self _ _)
  | comparison c =>
    obtain rfl := List.mem_singleton.mp hx
    exact List.Sublist.refl _

/-- The marks of the comparisons of an expression are some of its marks. -/
theorem flatMap_marks_sublist (e : Expr) :
    (e.comparisons.flatMap fun c => (comparison c).marks).Sublist e.marks := by
  induction e with
  | logical op left right ihl ihr =>
    rw [comparisons, List.flatMap_append]
    exact ihl.append ihr
  | not operand offset ih => exact ih.trans (List.sublist_cons_self _ _)
  | comparison c => simp [comparisons]

/-- **Each comparison ends before the next one begins**, if the marks increase. -/
theorem pairwise_comparisons {e : Expr}
    (hmarks : e.marks.Pairwise fun m m' => m.offset < m'.offset) :
    e.comparisons.Pairwise fun c c' =>
      ∀ m ∈ (comparison c).marks, ∀ m' ∈ (comparison c').marks, m.offset < m'.offset :=
  (List.pairwise_flatMap.mp (hmarks.sublist e.flatMap_marks_sublist)).2

end Expr

/-- The tokens of a query follow one another. -/
theorem pairwise_follows_of_tokenize {q : String} {ts : List Token}
    (hts : tokenize q = ts.map .ok) :
    ts.Pairwise fun t u => Lexer.Follows (.ok t) (.ok u) := by
  have h : (tokenize q).Pairwise Lexer.Follows := (Lexer.tokensFrom_placed 0 q.toList).1
  rw [hts] at h
  exact List.pairwise_map.mp h

/-- **Offsets are a source map.** In a query that is read as a tree, what the marks of the tree
say stands at their offsets, which increase in the order of the source; a comparison stands where
its field does; and every expression in the tree stands at the least offset in it. -/
theorem parse_marks {q : String} {e : Expr} (h : parse q = .ok e) :
    (∀ m ∈ e.marks, m.Stands q)
      ∧ (e.marks.Pairwise fun m m' => m.offset < m'.offset)
      ∧ (∀ c ∈ e.comparisons, c.offset = c.field.offset)
      ∧ ∀ x ∈ e.subtrees, (∃ m ∈ x.marks, m.offset = x.offset)
        ∧ ∀ m ∈ x.marks, x.offset ≤ m.offset := by
  obtain ⟨ts, n, hts, ⟨stop, hstop, hd⟩, -, -, hproper⟩ := exists_query_of_parse h
  have hmarks : MarksAmong ts [stop] [] e.marks := hd.marks
  have hincrease := hmarks.pairwise (pairwise_follows_of_tokenize hts)
  refine ⟨fun m hm => ?_, hincrease, fun c hc => ?_, fun x hx => ?_⟩
  · obtain ⟨xs, rfl, htokens⟩ := hmarks.exists_token
    obtain ⟨t, ht, hmark⟩ := htokens m hm
    have ht : t ∈ xs ++ [stop] := List.mem_append_left _ ht
    exact Token.stands_of_mark? (hts ▸ List.mem_map_of_mem ht) (hproper t ht).1 hmark
  · obtain ⟨_, _, _, -, hat, -⟩ := (hd.exists_comparisonAt c hc).resolve_left List.not_mem_nil
    exact hat.offset_eq
  · obtain ⟨feature, rest, hmarks⟩ := x.exists_marks_eq_cons
    have hx := List.Pairwise.sublist (Expr.marks_sublist_of_mem_subtrees hx) hincrease
    rw [hmarks] at hx ⊢
    refine ⟨⟨_, List.mem_cons_self, rfl⟩, List.forall_mem_cons.mpr ⟨Nat.le_refl _, fun m hm => ?_⟩⟩
    exact Nat.le_of_lt (List.rel_of_pairwise_cons hx hm)

/-- The marks of `a = "é" or NOT (b.c in [1, 'x'] and d != e.f)`. -/
theorem parse_marks_mixed :
    let q := "a = \"é\" or NOT (b.c in [1, 'x'] and d != e.f)"
    ∃ e, parse q = .ok e
      ∧ e.marks = [⟨0, .path ["a"]⟩, ⟨4, .literal (.string "é")⟩, ⟨11, .negation⟩,
        ⟨16, .path ["b", "c"]⟩,
        ⟨23, .list⟩, ⟨24, .literal (.int 1)⟩, ⟨27, .literal (.string "x")⟩, ⟨36, .path ["d"]⟩,
        ⟨41, .path ["e", "f"]⟩]
      ∧ (∀ m ∈ e.marks, m.Stands q) ∧ ∀ x ∈ e.subtrees, ∀ m ∈ x.marks, x.offset ≤ m.offset := by
  intro q
  let e : Expr := .logical .or (.comparison ⟨⟨["a"], 0⟩, .equal, .literal ⟨.string "é", 4⟩, 0⟩)
    (.not (.logical .and
      (.comparison ⟨⟨["b", "c"], 16⟩, .isIn, .list [⟨.int 1, 24⟩, ⟨.string "x", 27⟩] 23, 16⟩)
      (.comparison ⟨⟨["d"], 36⟩, .notEqual, .name ⟨["e", "f"], 41⟩, 36⟩)) 11)
  have hparse : parse q = .ok e := by decide +kernel
  obtain ⟨hstands, -, -, hleast⟩ := parse_marks hparse
  exact ⟨e, hparse, rfl, hstands, fun x hx => (hleast x hx).2⟩

end RecordQuery
