import RecordQuery.Proofs.Query.Paths
import RecordQuery.Query.Parser

/-!
# The grammar of queries

What a query is, said without the machine that reads it. `Derives p n k ts e us` says that the
tokens `ts` begin with a phrase of the kind `p`, that `e` is the tree of the phrase and that `us`
are the tokens after it. The two numbers measure the phrase: no token of it lies inside more than
`n` of its own parentheses and negations, and it has `k` comparisons.

Conjunctions and disjunctions are chains. A chain is read from the left: after its first operand
come `links`, and every link joins the tree so far with one more operand. So a chain groups to the
left, and since the operands of a disjunction are conjunctions and those of a conjunction are
negations, a conjunction binds closer. A parenthesis has no node of its own.

The grammar asks for the kinds of tokens only. Whether a name has an empty segment and whether a
number is in range is a question about single tokens, `Token.Legal`; the trees are defined for the
others too, with the numbers they write.

The main statement is `Derives.unique`: **the tokens of a phrase determine everything about it**,
as long as what follows cannot belong to it. Tree, measures and end of the phrase are then the
same in any two derivations.
-/

namespace RecordQuery

/-! ## What single tokens write -/

/-- Whether a text is an optional sign and at least one digit. -/
def IsIntText (cs : List Char) : Prop :=
  (splitSign cs).2 ≠ [] ∧ ∀ c ∈ (splitSign cs).2, c.isDigit = true

/-- **The integer that a sign and digits write**, of any size. -/
def writtenInt (cs : List Char) : Int :=
  if (splitSign cs).1 then -(ofDigits (splitSign cs).2 : Int) else ofDigits (splitSign cs).2

/-- The number of a decimal text, infinite if it is too large. -/
def writtenNumber (cs : List Char) : Binary64 :=
  match Decimal.read? cs with
  | none => .nan
  | some d => d.toBinary64

namespace Token

/-- The parts of a token's text between its points. -/
def segments (t : Token) : List String := splitPoints t.text

/-- The path that a name writes. -/
def writtenPath (t : Token) : NamePath := ⟨t.segments, t.offset⟩

/-- **The literal that a token writes**, whether or not its number is in range. -/
def written (t : Token) : Literal :=
  match t.kind with
  | .int => ⟨.int (writtenInt t.text.toList), t.offset⟩
  | .float => ⟨.float (writtenNumber t.text.toList), t.offset⟩
  | .string => ⟨.string t.text, t.offset⟩
  | .bool => ⟨.bool (t.text.toList.map Char.toLower == ['t', 'r', 'u', 'e']), t.offset⟩
  | _ => ⟨.null, t.offset⟩

/-- **Whether a token may stand in a query**: no segment of a name is empty, the integer of an
integer literal fits 64 bits, and the number of another number literal is finite. -/
def Legal (t : Token) : Prop :=
  match t.kind with
  | .name => "" ∉ t.segments
  | .int => IsIntText t.text.toList ∧ leastInt64 ≤ writtenInt t.text.toList
      ∧ writtenInt t.text.toList ≤ greatestInt64
  | .float => ∃ d, Decimal.read? t.text.toList = some d ∧ d.toBinary64.isFinite = true
  | _ => True

end Token

/-! ## Comparisons -/

namespace Grammar

/-- The kind of the bracket that opens a list. -/
def openingKind (round : Bool) : TokenKind := if round then .leftParen else .leftBracket

/-- The kind of the bracket that closes a list. -/
def closingKind (round : Bool) : TokenKind := if round then .rightParen else .rightBracket

@[simp] theorem isLiteral_openingKind (round : Bool) : (openingKind round).isLiteral = false := by
  cases round <;> rfl

@[simp] theorem isLiteral_closingKind (round : Bool) : (closingKind round).isLiteral = false := by
  cases round <;> rfl

theorem openingKind_ne_name (round : Bool) : openingKind round ≠ .name := by
  cases round <;> decide

theorem closingKind_ne_comma (round : Bool) : closingKind round ≠ .comma := by
  cases round <;> decide

/-- The two kinds of lists open differently. -/
theorem openingKind_injective {round round' : Bool} (h : openingKind round = openingKind round') :
    round = round' := by
  cases round <;> cases round' <;> first | rfl | exact absurd h (by decide)

/-- **An operator at the front**: one token, or `not` and `in`. -/
inductive OperatorAt : List Token → Operator → List Token → Prop
  | symbol {t : Token} {op : Operator} {us : List Token} (ht : t.kind = .operator op) :
      OperatorAt (t :: us) op us
  | notIn {t u : Token} {us : List Token} (ht : t.kind = .not) (hu : u.kind = .operator .isIn) :
      OperatorAt (t :: u :: us) .notIn us

/-- **The items of a list at the front**: literals with commas between them, and a comma after
the last one or none. -/
inductive ItemsAt : List Token → List Literal → List Token → Prop
  | none {us : List Token} : ItemsAt us [] us
  | last {t : Token} {us : List Token} (ht : t.kind.isLiteral = true) :
      ItemsAt (t :: us) [t.written] us
  | more {t c : Token} {ts us : List Token} {ls : List Literal} (ht : t.kind.isLiteral = true)
      (hc : c.kind = .comma) (h : ItemsAt ts ls us) : ItemsAt (t :: c :: ts) (t.written :: ls) us

/-- **An operand at the front.** -/
inductive OperandAt : List Token → Operand → List Token → Prop
  | literal {t : Token} {us : List Token} (ht : t.kind.isLiteral = true) :
      OperandAt (t :: us) (.literal t.written) us
  | name {t : Token} {us : List Token} (ht : t.kind = .name) :
      OperandAt (t :: us) (.name t.writtenPath) us
  | list {o c : Token} {ts us : List Token} {ls : List Literal} (round : Bool)
      (ho : o.kind = openingKind round) (h : ItemsAt ts ls (c :: us))
      (hc : c.kind = closingKind round) :
      OperandAt (o :: ts) (.list ls o.offset) us

/-- **A comparison at the front**: a name, an operator and an operand. -/
inductive ComparisonAt : List Token → Comparison → List Token → Prop
  | mk {t : Token} {ts us vs : List Token} {op : Operator} {v : Operand} (ht : t.kind = .name)
      (hop : OperatorAt ts op us) (hv : OperandAt us v vs) :
      ComparisonAt (t :: ts) ⟨t.writtenPath, op, v, t.offset⟩ vs

end Grammar

/-! ## Expressions -/

/-- The kind of a connective's keyword. -/
def Connective.kind : Connective → TokenKind
  | .and => .and
  | .or => .or

/-- A keyword belongs to one connective. -/
theorem Connective.kind_injective {op op' : Connective} (h : op.kind = op'.kind) : op = op' := by
  cases op <;> cases op' <;> first | rfl | exact absurd h (by simp [kind])

namespace Grammar

/-- **The kinds of phrases.** -/
inductive Phrase where
  /-- A comparison, an expression in parentheses, or a negation of one of these. -/
  | negation
  /-- A conjunction or a disjunction, possibly of one operand. -/
  | chain (op : Connective)
  /-- What stands in a chain after the tree `left`. -/
  | links (op : Connective) (left : Expr)

/-- What a connective connects. -/
def Phrase.operandOf : Connective → Phrase
  | .and => .negation
  | .or => .chain .and

/-- **A phrase at the front**, with its tree, its nesting, the number of its comparisons
and the tokens after it. -/
inductive Derives : Phrase → (nesting terms : Nat) → List Token → Expr → List Token → Prop
  | comparison {ts us : List Token} {c : Comparison} (h : ComparisonAt ts c us) :
      Derives .negation 0 1 ts (.comparison c) us
  | not {n k : Nat} {t : Token} {ts us : List Token} {e : Expr} (ht : t.kind = .not)
      (h : Derives .negation n k ts e us) :
        Derives .negation (n + 1) k (t :: ts) (.not e t.offset) us
  | group {n k : Nat} {o c : Token} {ts us : List Token} {e : Expr} (ho : o.kind = .leftParen)
      (h : Derives (.chain .or) n k ts e (c :: us)) (hc : c.kind = .rightParen) :
      Derives .negation (n + 1) k (o :: ts) e us
  | chain {m n j k : Nat} {op : Connective} {ts us vs : List Token} {a e : Expr}
      (h : Derives (.operandOf op) m j ts a us) (hs : Derives (.links op a) n k us e vs) :
      Derives (.chain op) (max m n) (j + k) ts e vs
  | done {op : Connective} {us : List Token} {a : Expr} : Derives (.links op a) 0 0 us a us
  | link {m n j k : Nat} {op : Connective} {t : Token} {ts us vs : List Token} {a b e : Expr}
      (ht : t.kind = op.kind) (h : Derives (.operandOf op) m j ts b us)
      (hs : Derives (.links op (.logical op a b)) n k us e vs) :
      Derives (.links op a) (max m n) (j + k) (t :: ts) e vs

/-- **A query**: a disjunction and the end of input. -/
def IsQuery (nesting terms : Nat) (ts : List Token) (e : Expr) : Prop :=
  ∃ stop, stop.kind = .endOfInput ∧ Derives (.chain .or) nesting terms ts e [stop]

/-! ## The first token of a phrase -/

section FirstToken

variable {t : Token} {ts us : List Token}

theorem operandAt_literal_iff {v : Operand} (ht : t.kind.isLiteral = true) :
    OperandAt (t :: ts) v us ↔ v = .literal t.written ∧ us = ts := by
  constructor
  · intro h
    cases h with
    | literal _ => exact ⟨rfl, rfl⟩
    | name hname => exact absurd ht (by simp [hname, TokenKind.isLiteral])
    | list round ho _ _ => exact absurd ht (by simp [ho])
  · rintro ⟨rfl, rfl⟩
    exact .literal ht

theorem operandAt_name_iff {v : Operand} (ht : t.kind = .name) :
    OperandAt (t :: ts) v us ↔ v = .name t.writtenPath ∧ us = ts := by
  constructor
  · intro h
    cases h with
    | literal hl => exact absurd hl (by simp [ht, TokenKind.isLiteral])
    | name _ => exact ⟨rfl, rfl⟩
    | list round ho _ _ => exact absurd (ht.symm.trans ho) (openingKind_ne_name round).symm
  · rintro ⟨rfl, rfl⟩
    exact .name ht

theorem operandAt_list_iff {v : Operand} {round : Bool} (ht : t.kind = openingKind round) :
    OperandAt (t :: ts) v us
      ↔ ∃ ls c, ItemsAt ts ls (c :: us) ∧ c.kind = closingKind round ∧ v = .list ls t.offset := by
  constructor
  · intro h
    cases h with
    | literal hl => exact absurd hl (by simp [ht])
    | name hname => exact absurd (hname.symm.trans ht) (openingKind_ne_name round).symm
    | list round' ho hs hc =>
      obtain rfl := openingKind_injective (ht.symm.trans ho)
      exact ⟨_, _, hs, hc, rfl⟩
  · rintro ⟨ls, c, hs, hc, rfl⟩
    exact .list round ht hs hc

theorem derives_name_iff {n k : Nat} {x : Expr} (ht : t.kind = .name) :
    Derives .negation n k (t :: ts) x us
      ↔ ∃ c, ComparisonAt (t :: ts) c us ∧ n = 0 ∧ k = 1 ∧ x = .comparison c := by
  constructor
  · intro h
    cases h with
    | comparison h => exact ⟨_, h, rfl, rfl, rfl⟩
    | not hnot _ => exact absurd (ht.symm.trans hnot) (by simp)
    | group ho _ _ => exact absurd (ht.symm.trans ho) (by simp)
  · rintro ⟨c, h, rfl, rfl, rfl⟩
    exact .comparison h

theorem derives_not_iff {n k : Nat} {x : Expr} (ht : t.kind = .not) :
    Derives .negation n k (t :: ts) x us
      ↔ ∃ m y, Derives .negation m k ts y us ∧ n = m + 1 ∧ x = .not y t.offset := by
  constructor
  · intro h
    cases h with
    | comparison h => obtain ⟨hname, _, _⟩ := h; exact absurd (hname.symm.trans ht) (by simp)
    | not _ h => exact ⟨_, _, h, rfl, rfl⟩
    | group ho _ _ => exact absurd (ht.symm.trans ho) (by simp)
  · rintro ⟨m, y, h, rfl, rfl⟩
    exact .not ht h

theorem derives_group_iff {n k : Nat} {x : Expr} (ht : t.kind = .leftParen) :
    Derives .negation n k (t :: ts) x us
      ↔ ∃ m c, Derives (.chain .or) m k ts x (c :: us) ∧ c.kind = .rightParen ∧ n = m + 1 := by
  constructor
  · intro h
    cases h with
    | comparison h => obtain ⟨hname, _, _⟩ := h; exact absurd (hname.symm.trans ht) (by simp)
    | not hnot _ => exact absurd (ht.symm.trans hnot) (by simp)
    | group _ h hc => exact ⟨_, _, h, hc, rfl⟩
  · rintro ⟨m, c, h, hc, rfl⟩
    exact .group ht h hc

end FirstToken

/-! ## The tokens determine the phrase -/

theorem OperatorAt.unique {ts us us' : List Token} {op op' : Operator} (h : OperatorAt ts op us)
    (h' : OperatorAt ts op' us') : op = op' ∧ us = us' := by
  cases h with
  | symbol ht =>
    cases h' with
    | symbol ht' => exact ⟨TokenKind.operator.inj (ht.symm.trans ht'), rfl⟩
    | notIn ht' _ => exact absurd (ht.symm.trans ht') (by simp)
  | notIn ht hu =>
    cases h' with
    | symbol ht' => exact absurd (ht.symm.trans ht') (by simp)
    | notIn _ _ => exact ⟨rfl, rfl⟩

/-- Two readings of the items up to a bracket are the same. -/
theorem ItemsAt.unique {ts us us' : List Token} {c c' : Token} {ls ls' : List Literal}
    {round round' : Bool} (h : ItemsAt ts ls (c :: us)) (hc : c.kind = closingKind round)
    (h' : ItemsAt ts ls' (c' :: us')) (hc' : c'.kind = closingKind round') :
    ls = ls' ∧ us = us' := by
  have hl : c.kind.isLiteral = false := hc ▸ isLiteral_closingKind round
  have hl' : c'.kind.isLiteral = false := hc' ▸ isLiteral_closingKind round'
  generalize hr : c :: us = r at h
  induction h generalizing ls' with
  | none =>
    subst hr
    cases h' with
    | none => exact ⟨rfl, rfl⟩
    | last ht => exact absurd ht (by simp [hl])
    | more ht _ _ => exact absurd ht (by simp [hl])
  | last ht =>
    subst hr
    cases h' with
    | none => exact absurd ht (by simp [hl'])
    | last _ => exact ⟨rfl, rfl⟩
    | more _ hcomma _ => exact absurd (hcomma.symm.trans hc) (closingKind_ne_comma round).symm
  | more ht hcomma h ih =>
    cases h' with
    | none => exact absurd ht (by simp [hl'])
    | last _ => exact absurd (hcomma.symm.trans hc') (closingKind_ne_comma round').symm
    | more _ _ h'' =>
      obtain ⟨rfl, rfl⟩ := ih h'' hr
      exact ⟨rfl, rfl⟩

theorem OperandAt.unique {ts us us' : List Token} {v v' : Operand} (h : OperandAt ts v us)
    (h' : OperandAt ts v' us') : v = v' ∧ us = us' := by
  cases h with
  | literal ht =>
    obtain ⟨rfl, rfl⟩ := (operandAt_literal_iff ht).mp h'
    exact ⟨rfl, rfl⟩
  | name ht =>
    obtain ⟨rfl, rfl⟩ := (operandAt_name_iff ht).mp h'
    exact ⟨rfl, rfl⟩
  | list round ho hs hc =>
    obtain ⟨ls, c, hs', hc', rfl⟩ := (operandAt_list_iff ho).mp h'
    obtain ⟨rfl, rfl⟩ := hs.unique hc hs' hc'
    exact ⟨rfl, rfl⟩

theorem ComparisonAt.unique {ts us us' : List Token} {c c' : Comparison} (h : ComparisonAt ts c us)
    (h' : ComparisonAt ts c' us') : c = c' ∧ us = us' := by
  obtain ⟨_, hop, hv⟩ := h
  obtain ⟨_, hop', hv'⟩ := h'
  obtain ⟨rfl, rfl⟩ := hop.unique hop'
  obtain ⟨rfl, rfl⟩ := hv.unique hv'
  exact ⟨rfl, rfl⟩

/-- **Whether tokens cannot go on a chain**: a conjunction ends where no `and` follows, a
disjunction where neither `and` nor `or` does. -/
def Ends (op : Connective) (us : List Token) : Prop :=
  ∀ t ∈ us.head?, t.kind ≠ .and ∧ (op = .or → t.kind ≠ .or)

theorem ends_cons {op : Connective} {t : Token} {us : List Token} :
    Ends op (t :: us) ↔ t.kind ≠ .and ∧ (op = .or → t.kind ≠ .or) := by
  simp [Ends]

/-- What ends a chain is not its connective. -/
theorem Ends.kind_ne {op : Connective} {t : Token} {us : List Token} (h : Ends op (t :: us)) :
    t.kind ≠ op.kind := by
  rw [ends_cons] at h
  cases op with
  | and => exact h.1
  | or => exact h.2 rfl

/-- What ends a disjunction ends a conjunction. -/
theorem Ends.of_or {op : Connective} {us : List Token} (h : Ends .or us) : Ends op us :=
  fun t ht => ⟨(h t ht).1, fun _ => (h t ht).2 rfl⟩

/-- A token that is no connective ends every chain. -/
theorem ends_of_kind {op : Connective} {t : Token} {us : List Token} (h : t.kind ≠ .and)
    (h' : t.kind ≠ .or) : Ends op (t :: us) :=
  ends_cons.mpr ⟨h, fun _ => h'⟩

/-- Whether tokens cannot go on a phrase. A negation ends by itself. -/
def Phrase.Ends : Phrase → List Token → Prop
  | .negation, _ => True
  | .chain op, us | .links op _, us => Grammar.Ends op us

/-- **An operand ends where its chain goes on or ends.** -/
theorem Derives.operand_ends {op : Connective} {a e : Expr} {n k : Nat} {us vs : List Token}
    (h : Derives (.links op a) n k us e vs) (hend : Ends op vs) :
    (Phrase.operandOf op).Ends us := by
  cases op with
  | and => trivial
  | or =>
    cases h with
    | done => exact fun t ht => ⟨(hend t ht).1, by simp⟩
    | link ht _ _ => exact ends_cons.mpr ⟨by simp [ht, Connective.kind], by simp⟩

/-- **The tokens determine the phrase**: its measures, its tree and where it ends. -/
theorem Derives.unique {p : Phrase} {n n' k k' : Nat} {ts us us' : List Token} {e e' : Expr}
    (h : Derives p n k ts e us) (hend : p.Ends us) (h' : Derives p n' k' ts e' us')
    (hend' : p.Ends us') : n = n' ∧ k = k' ∧ e = e' ∧ us = us' := by
  induction h generalizing n' k' e' us' with
  | comparison h =>
    cases h with
    | mk hname hop hv =>
      obtain ⟨c, hc, rfl, rfl, rfl⟩ := (derives_name_iff hname).mp h'
      obtain ⟨rfl, rfl⟩ := hc.unique (.mk hname hop hv)
      exact ⟨rfl, rfl, rfl, rfl⟩
  | not ht h ih =>
    obtain ⟨m, y, hd, rfl, rfl⟩ := (derives_not_iff ht).mp h'
    obtain ⟨rfl, rfl, rfl, rfl⟩ := ih trivial hd trivial
    exact ⟨rfl, rfl, rfl, rfl⟩
  | group ho h hc ih =>
    -- a closing parenthesis ends the chain between the parentheses
    have hclose : ∀ {c : Token} {vs : List Token}, c.kind = .rightParen → Ends .or (c :: vs) :=
      fun hc => ends_of_kind (by simp [hc]) (by simp [hc])
    obtain ⟨m, c', hd, hc', rfl⟩ := (derives_group_iff ho).mp h'
    obtain ⟨rfl, rfl, rfl, hus⟩ := ih (hclose hc) hd (hclose hc')
    exact ⟨rfl, rfl, rfl, (List.cons.inj hus).2⟩
  | chain h hs ih ihs =>
    cases h' with
    | chain h' hs' =>
      obtain ⟨rfl, rfl, rfl, rfl⟩ := ih (hs.operand_ends hend) h' (hs'.operand_ends hend')
      obtain ⟨rfl, rfl, rfl, rfl⟩ := ihs hend hs' hend'
      exact ⟨rfl, rfl, rfl, rfl⟩
  | done =>
    cases h' with
    | done => exact ⟨rfl, rfl, rfl, rfl⟩
    | link ht _ _ => exact absurd ht (Ends.kind_ne hend)
  | link ht h hs ih ihs =>
    cases h' with
    | done => exact absurd ht (Ends.kind_ne hend')
    | link _ h' hs' =>
      obtain ⟨rfl, rfl, rfl, rfl⟩ := ih (hs.operand_ends hend) h' (hs'.operand_ends hend')
      obtain ⟨rfl, rfl, rfl, rfl⟩ := ihs hend hs' hend'
      exact ⟨rfl, rfl, rfl, rfl⟩

/-- **A sequence of tokens is a query in one way only.** -/
theorem IsQuery.unique {n n' k k' : Nat} {ts : List Token} {e e' : Expr} (h : IsQuery n k ts e)
    (h' : IsQuery n' k' ts e') : n = n' ∧ k = k' ∧ e = e' := by
  have hends : ∀ {stop : Token}, stop.kind = .endOfInput → Ends .or [stop] :=
    fun hstop => ends_of_kind (by simp [hstop]) (by simp [hstop])
  obtain ⟨stop, hstop, hd⟩ := h
  obtain ⟨stop', hstop', hd'⟩ := h'
  obtain ⟨hn, hk, he, _⟩ := hd.unique (hends hstop) hd' (hends hstop')
  exact ⟨hn, hk, he⟩

/-! ## What follows a phrase -/

theorem OperatorAt.suffix {ts us : List Token} {op : Operator} (h : OperatorAt ts op us) :
    us <:+ ts := by
  cases h with
  | symbol _ => exact List.suffix_cons _ us
  | notIn _ _ => exact (List.suffix_cons _ us).trans (List.suffix_cons _ _)

theorem ItemsAt.suffix {ts us : List Token} {ls : List Literal} (h : ItemsAt ts ls us) :
    us <:+ ts := by
  induction h with
  | none => exact List.suffix_rfl
  | last _ => exact List.suffix_cons _ _
  | more _ _ _ ih => exact ih.trans ((List.suffix_cons _ _).trans (List.suffix_cons _ _))

theorem OperandAt.suffix {ts us : List Token} {v : Operand} (h : OperandAt ts v us) :
    us <:+ ts := by
  cases h with
  | literal _ => exact List.suffix_cons _ us
  | name _ => exact List.suffix_cons _ us
  | list _ _ hs _ => exact (List.suffix_cons _ us).trans (hs.suffix.trans (List.suffix_cons _ _))

theorem ComparisonAt.suffix {ts us : List Token} {c : Comparison} (h : ComparisonAt ts c us) :
    us <:+ ts := by
  obtain ⟨_, hop, hv⟩ := h
  exact hv.suffix.trans (hop.suffix.trans (List.suffix_cons _ _))

/-- **What follows a phrase is the end of the tokens** that it is at the front of. -/
theorem Derives.suffix {p : Phrase} {n k : Nat} {ts us : List Token} {e : Expr}
    (h : Derives p n k ts e us) : us <:+ ts := by
  induction h with
  | comparison h => exact h.suffix
  | not _ _ ih => exact ih.trans (List.suffix_cons _ _)
  | group _ _ _ ih => exact (List.suffix_cons _ _).trans (ih.trans (List.suffix_cons _ _))
  | chain _ _ ih ihs => exact ihs.trans ih
  | done => exact List.suffix_rfl
  | link _ _ _ ih ihs => exact ihs.trans (ih.trans (List.suffix_cons _ _))

/-! ## The measures -/

/-- What the tree before a phrase has already counted. -/
def Phrase.counted : Phrase → Nat
  | .links _ left => left.comparisons.length
  | _ => 0

/-- **The terms of a phrase are the comparisons of its tree.** -/
theorem Derives.terms_eq {p : Phrase} {n k : Nat} {ts us : List Token} {e : Expr}
    (h : Derives p n k ts e us) : p.counted + k = e.comparisons.length := by
  have hop : ∀ op : Connective, (Phrase.operandOf op).counted = 0 := fun op => by cases op <;> rfl
  induction h with
  | comparison _ => rfl
  | not _ _ ih => exact ih
  | group _ _ _ ih => exact ih
  | chain _ _ ih ihs =>
    rw [hop, Nat.zero_add] at ih
    rw [← ihs, ih]
    exact Nat.zero_add _
  | done => rfl
  | link _ _ _ ih ihs =>
    rw [hop, Nat.zero_add] at ih
    rw [← ihs, ih]
    simp only [Phrase.counted, Expr.comparisons, List.length_append]
    omega

/-- A query has as many terms as its tree has comparisons. -/
theorem IsQuery.terms_eq {n k : Nat} {ts : List Token} {e : Expr} (h : IsQuery n k ts e) :
    k = e.comparisons.length := by
  obtain ⟨stop, -, hd⟩ := h
  exact (Nat.zero_add k).symm.trans hd.terms_eq

/-- Every phrase but the end of a chain has a comparison. -/
theorem Derives.terms_pos {p : Phrase} {n k : Nat} {ts us : List Token} {e : Expr}
    (h : Derives p n k ts e us) (hp : ∀ op a, p ≠ .links op a) : 0 < k := by
  have hop : ∀ (op op' : Connective) (a : Expr), Phrase.operandOf op ≠ .links op' a :=
    fun op _ _ => by cases op <;> simp [Phrase.operandOf]
  induction h with
  | comparison _ => exact Nat.one_pos
  | not _ _ ih => exact ih (by simp)
  | group _ _ _ ih => exact ih (by simp)
  | chain _ _ ih _ => exact Nat.add_pos_left (ih (hop _)) _
  | done => exact absurd rfl (hp _ _)
  | link _ _ _ _ _ => exact absurd rfl (hp _ _)

end Grammar
end RecordQuery
