import Mathlib.Logic.Basic
import RecordQuery.Proofs.Query.Grammar

/-!
# The machine recognizes the grammar

`Parser.run` reads a query one token at a time and never looks back; the grammar says what a query
is. Here the two are tied together: the machine accepts exactly the queries of the grammar that
keep the limits, and the tree it returns is the one that the grammar gives them.

What makes the proof an induction on the tokens is a reading of the machine's states. A state
holds the beginnings of phrases, so what it still asks for is their ends: `State.Completes s ts e`
says that `ts` completes the state `s` to the query `e`. For a comparison that has begun this is
the rest of it; after that comes what is left of the innermost chain (`Group.Rest`), then the
closing parenthesis, the rest of the chain around it, and so on outwards (`Finishes`). The limits
are part of it: what a state asks for may use the levels and comparisons that are left.

One step of the machine does not change what is asked for (`completes_step`): the tokens complete
a state exactly when the first of them is legal and the others complete the next state. For a
whole run that is `run_eq_ok_iff`.
-/

namespace RecordQuery

open Grammar

/-! ## Single tokens -/

theorem emptySegment?_eq_none_iff (offset : Nat) (segments : List (List Char)) :
    emptySegment? offset segments = none ↔ [] ∉ segments := by
  induction segments generalizing offset with
  | nil => simp [emptySegment?]
  | cons segment rest ih =>
    cases segment with
    | nil => simp [emptySegment?]
    | cons c cs => simp [emptySegment?, ih]

theorem readInt64?_eq_some_iff (cs : List Char) (n : Int) :
    readInt64? cs = some n
      ↔ (IsIntText cs ∧ leastInt64 ≤ writtenInt cs ∧ writtenInt cs ≤ greatestInt64)
        ∧ n = writtenInt cs := by
  have hdigits : ((splitSign cs).2.isEmpty || !(splitSign cs).2.all Char.isDigit) = true
      ↔ ¬ IsIntText cs := by
    rw [IsIntText, ← List.all_eq_true, Bool.or_eq_true, List.isEmpty_iff, Bool.not_eq_true',
      Bool.eq_false_iff, not_and_or, not_not]
  have hfits : fitsInt64 (writtenInt cs) = true
      ↔ leastInt64 ≤ writtenInt cs ∧ writtenInt cs ≤ greatestInt64 := by
    simp [fitsInt64]
  show (if ((splitSign cs).2.isEmpty || !(splitSign cs).2.all Char.isDigit) = true then none
      else if fitsInt64 (writtenInt cs) = true then some (writtenInt cs) else none) = some n ↔ _
  by_cases ht : IsIntText cs
  · rw [if_neg (fun h => hdigits.mp h ht), ← hfits]
    by_cases hf : fitsInt64 (writtenInt cs) = true
    · rw [if_pos hf, Option.some.injEq, eq_comm]
      exact (and_iff_right ⟨ht, hf⟩).symm
    · rw [if_neg hf]
      exact ⟨nofun, fun h => absurd h.1.2 hf⟩
  · rw [if_pos (hdigits.mpr ht)]
    exact ⟨nofun, fun h => absurd h.1.1 ht⟩

theorem readBinary64?_eq_some_iff (cs : List Char) (x : Binary64) :
    readBinary64? cs = some x
      ↔ (∃ d, Decimal.read? cs = some d ∧ d.toBinary64.isFinite = true) ∧ x = writtenNumber cs := by
  unfold readBinary64? writtenNumber
  cases Decimal.read? cs with
  | none => simp
  | some d =>
    by_cases hd : d.toBinary64.isFinite = true
    · simp only [hd, if_true, Option.some.injEq, exists_eq_left', true_and]
      exact eq_comm
    · simp [hd]

/-- Whether a token of this kind stands for itself: it is neither a name nor a literal. -/
def TokenKind.isFixed : TokenKind → Bool
  | .name => false
  | kind => !kind.isLiteral

namespace Token

/-- **The path of a name is read exactly when no segment is empty.** -/
theorem path_eq_ok_iff {t : Token} (ht : t.kind = .name) (p : NamePath) :
    t.path = .ok p ↔ t.Legal ∧ p = t.writtenPath := by
  have hempty : t.Legal ↔ emptySegment? t.offset (t.text.toList.splitOn '.') = none := by
    rw [emptySegment?_eq_none_iff, Legal, ht]
    simp [segments, splitPoints, String.ext_iff]
  rw [hempty, path]
  cases emptySegment? t.offset (t.text.toList.splitOn '.') with
  | none => simp [writtenPath, segments, splitPoints, eq_comm]
  | some offset => simp

/-- **The value of a literal is read exactly when its number is in range.** -/
theorem literal_eq_ok_iff {t : Token} (ht : t.kind.isLiteral = true) (l : Literal) :
    t.literal = .ok l ↔ t.Legal ∧ l = t.written := by
  unfold literal Legal written
  cases hk : t.kind with
  | int =>
    have h := readInt64?_eq_some_iff t.text.toList
    cases hr : readInt64? t.text.toList with
    | none =>
      rw [hr] at h
      simp only [reduceCtorEq, false_iff, not_and] at h ⊢
      exact fun hl _ => h _ hl rfl
    | some n =>
      obtain ⟨hl, hn⟩ := (h n).mp hr
      simp only [Except.ok.injEq, hn, eq_comm (a := l)]
      exact (and_iff_right hl).symm
  | float =>
    have h := readBinary64?_eq_some_iff t.text.toList
    cases hr : readBinary64? t.text.toList with
    | none =>
      rw [hr] at h
      simp only [reduceCtorEq, false_iff, not_and] at h ⊢
      exact fun hl _ => h _ hl rfl
    | some x =>
      obtain ⟨hl, hx⟩ := (h x).mp hr
      simp only [Except.ok.injEq, hx, eq_comm (a := l)]
      exact (and_iff_right hl).symm
  | string | bool | null => simp [eq_comm]
  | _ => simp [hk, TokenKind.isLiteral] at ht

/-- A token that stands for itself is legal. -/
theorem legal_of_kind {t : Token} {kind : TokenKind} (ht : t.kind = kind)
    (hkind : kind.isFixed = true) : t.Legal := by
  unfold Legal
  rw [ht]
  cases kind <;> trivial

theorem legal_of_openingKind {t : Token} {round : Bool} (ht : t.kind = openingKind round) :
    t.Legal :=
  legal_of_kind ht (by cases round <;> rfl)

theorem legal_of_connective {t : Token} {op : Connective} (ht : t.kind = op.kind) : t.Legal :=
  legal_of_kind ht (by cases op <;> rfl)

end Token

/-! ## What a state asks for -/

namespace Parser

/-- How many parentheses and negations are open around the innermost group. -/
def levels (outer : List Group) : Nat :=
  outer.length + outer.foldr (fun g n => g.negations.length + n) 0

@[simp] theorem levels_cons (g : Group) (outer : List Group) :
    levels (g :: outer) = levels outer + g.negations.length + 1 := by
  simp only [levels, List.length_cons, List.foldr_cons]
  omega

theorem State.depth_eq (s : State) : s.depth = levels s.outer + s.group.negations.length := by
  simp only [State.depth, levels, List.foldr_cons]
  omega

/-- **The rest of a group** after the negated term `x`: the links of its conjunction and those of
its disjunction, nested at most `room` levels deep. The group is then the expression `y`. -/
def Group.Rest (room : Nat) (g : Group) (x : Expr) (terms : Nat) (ts : List Token) (y : Expr)
    (us : List Token) : Prop :=
  ∃ m n j k a vs, Derives (.links .and (g.conjoin x)) m j ts a vs
    ∧ Derives (.links .or (g.disjoin a)) n k vs y us ∧ max m n ≤ room ∧ terms = j + k

/-- **What follows the negated term `x` of the innermost group** up to the end of the
query `e`: the rest of the group, and then its closing parenthesis and what follows the
group it is a term of. -/
def Finishes : List Group → Group → Nat → Expr → List Token → Expr → Prop
  | outer, g, terms, x, ts, e =>
    ∃ k y us, g.Rest (nestingLimit - levels outer) x k ts y us ∧ k ≤ termLimit - terms
      ∧ match outer with
        | [] => y = e ∧ ∃ stop, us = [stop] ∧ stop.kind = .endOfInput
        | h :: outer =>
          ∃ c vs,
            us = c :: vs ∧ c.kind = .rightParen ∧ Finishes outer h (terms + k) (h.negate y) vs e

namespace State

/-- What follows a comparison. -/
def FinishesComparison (s : State) (field : NamePath) (op : Operator) (v : Operand)
    (ts : List Token) (e : Expr) : Prop :=
  Finishes s.outer s.group s.terms (s.group.negate (.comparison ⟨field, op, v, field.offset⟩)) ts e

/-- What follows the items of a list. -/
def FinishesList (s : State) (l : OpenList) (items : List Literal) (ts : List Token) (e : Expr) :
    Prop :=
  ∃ c us, ts = c :: us ∧ c.kind = l.closing
    ∧ s.FinishesComparison l.field l.op (.list (l.items ++ items) l.offset) us e

/-- **The tokens that complete a state** to the query `e`. -/
def Completes (s : State) (ts : List Token) (e : Expr) : Prop :=
  match s.stage with
  | .term =>
    ∃ n k x us, Derives .negation n k ts x us ∧ n ≤ nestingLimit - s.depth ∧ k ≤ termLimit - s.terms
      ∧ Finishes s.outer s.group (s.terms + k) (s.group.negate x) us e
  | .operator field =>
    ∃ op v us vs, OperatorAt ts op us ∧ OperandAt us v vs ∧ s.FinishesComparison field op v vs e
  | .negated field =>
    ∃ t us v vs, ts = t :: us ∧ t.kind = .operator .isIn ∧ OperandAt us v vs
      ∧ s.FinishesComparison field .notIn v vs e
  | .value field op => ∃ v us, OperandAt ts v us ∧ s.FinishesComparison field op v us e
  | .item l => ∃ ls us, ItemsAt ts ls us ∧ s.FinishesList l ls us e
  | .separator l =>
    s.FinishesList l [] ts e
      ∨ ∃ t us ls vs, ts = t :: us ∧ t.kind = .comma ∧ ItemsAt us ls vs ∧ s.FinishesList l ls vs e
  | .joint x => Finishes s.outer s.group s.terms x ts e

end State

/-- What an outcome asks for after the token that led to it. -/
def Outcome.Completes : Outcome → List Token → Expr → Prop
  | .accept x, ts, e => ts = [] ∧ x = e
  | .next s, ts, e => s.Completes ts e
  | .refuse _ _, _, _ => False

/-! ## The rest of a group -/

/-- The group after the connective `op`, with everything read so far to the left of it. -/
def Group.link (g : Group) (x : Expr) : Connective → Group
  | .and => { g with conjunct := some (g.conjoin x) }
  | .or => { g with disjunct := some (g.close x), conjunct := none }

/-- A group goes on after a connective with one more negation. -/
theorem Group.rest_link_iff {g : Group} {op : Connective} {t : Token} {room k : Nat} {x y : Expr}
    {ts us : List Token} (ht : t.kind = op.kind) (hend : Ends .or us) :
    g.Rest room x k (t :: ts) y us
      ↔ ∃ m j b vs i, Derives .negation m j ts b vs ∧ m ≤ room ∧ (g.link x op).Rest room b i vs y us
        ∧ k = j + i := by
  constructor
  · rintro ⟨m, n, j, i, a, vs, hand, hor, hroom, rfl⟩
    cases hand with
    | done =>
      cases hor with
      | done => exact absurd ht hend.of_or.kind_ne
      | link ht' hchain hor =>
        obtain rfl := Connective.kind_injective (ht.symm.trans ht')
        obtain _ | _ | _ | ⟨hneg, hand⟩ := hchain
        exact ⟨_, _, _, _, _, hneg,
          by omega, ⟨_, _, _, _, _, _, hand, hor, by omega, rfl⟩, by omega⟩
    | link ht' hneg hand =>
      obtain rfl := Connective.kind_injective (ht.symm.trans ht')
      exact ⟨_, _, _, _, _, hneg, by omega, ⟨_, _, _, _, _, _, hand, hor, by omega, rfl⟩, by omega⟩
  · rintro ⟨m, j, b, vs, i, hneg, hm, ⟨m', n', j', k', a, ws, hand, hor, hroom, rfl⟩, rfl⟩
    cases op with
    | and =>
      exact ⟨_, _, _, _, _, _, .link ht hneg hand, hor, by omega, by omega⟩
    | or =>
      exact ⟨_, _, _, _, _, _, .done, .link ht (.chain hneg hand) hor, by omega, by omega⟩

/-- A group ends before a token that is no connective. -/
theorem Group.rest_end_iff {g : Group} {t : Token} {room k : Nat} {x y : Expr} {ts us : List Token}
    (hand : t.kind ≠ .and) (hor : t.kind ≠ .or) :
    g.Rest room x k (t :: ts) y us ↔ k = 0 ∧ y = g.close x ∧ us = t :: ts := by
  constructor
  · rintro ⟨m, n, j, i, a, vs, h, h', -, rfl⟩
    cases h with
    | link ht _ _ => exact absurd ht hand
    | done =>
      cases h' with
      | link ht _ _ => exact absurd ht hor
      | done => exact ⟨rfl, rfl, rfl⟩
  · rintro ⟨rfl, rfl, rfl⟩
    exact ⟨0, 0, 0, 0, _, _, .done, .done, Nat.zero_le _, rfl⟩

/-- A disjunction is a negation and the rest of a group that begins with it. -/
theorem exists_derives_chain_iff {room k : Nat} {y : Expr} {ts us : List Token} :
    (∃ n, Derives (.chain .or) n k ts y us ∧ n ≤ room)
      ↔ ∃ m j x vs i, Derives .negation m j ts x vs ∧ m ≤ room ∧ Group.empty.Rest room x i vs y us
        ∧ k = j + i := by
  constructor
  · rintro ⟨n, h, hn⟩
    obtain _ | _ | _ | ⟨hchain, hor⟩ := h
    obtain _ | _ | _ | ⟨hneg, hand⟩ := hchain
    exact ⟨_, _, _, _, _, hneg, by omega, ⟨_, _, _, _, _, _, hand, hor, by omega, rfl⟩, by omega⟩
  · rintro ⟨m, j, x, vs, i, hneg, hm, ⟨m', n', j', k', a, ws, hand, hor, hroom, rfl⟩, rfl⟩
    rw [← Nat.add_assoc]
    exact ⟨_, .chain (.chain hneg hand) hor, by omega⟩

/-! ## What follows a negated term -/

/-- What follows a whole group that is the expression `y`. -/
def Closes (outer : List Group) (terms : Nat) (y : Expr) (us : List Token) (e : Expr) : Prop :=
  match outer with
  | [] => y = e ∧ ∃ stop, us = [stop] ∧ stop.kind = .endOfInput
  | h :: outer =>
    ∃ c vs, us = c :: vs ∧ c.kind = .rightParen ∧ Finishes outer h terms (h.negate y) vs e

theorem finishes_iff {outer : List Group} {g : Group} {terms : Nat} {x e : Expr} {ts : List Token} :
    Finishes outer g terms x ts e
      ↔ ∃ k y us, g.Rest (nestingLimit - levels outer) x k ts y us ∧ k ≤ termLimit - terms
        ∧ Closes outer (terms + k) y us e := by
  cases outer <;> rfl

theorem closes_nil_iff {terms : Nat} {y e : Expr} {t : Token} {ts : List Token} :
    Closes [] terms y (t :: ts) e ↔ t.kind = .endOfInput ∧ ts = [] ∧ y = e := by
  constructor
  · rintro ⟨hy, stop, hcons, hkind⟩
    obtain ⟨rfl, rfl⟩ := List.cons.inj hcons
    exact ⟨hkind, rfl, hy⟩
  · rintro ⟨hkind, rfl, hy⟩
    exact ⟨hy, t, rfl, hkind⟩

theorem closes_cons_iff {h : Group} {outer : List Group} {terms : Nat} {y e : Expr} {t : Token}
    {ts : List Token} :
    Closes (h :: outer) terms y (t :: ts) e
      ↔ t.kind = .rightParen ∧ Finishes outer h terms (h.negate y) ts e := by
  constructor
  · rintro ⟨c, us, hcons, hkind, hf⟩
    obtain ⟨rfl, rfl⟩ := List.cons.inj hcons
    exact ⟨hkind, hf⟩
  · rintro ⟨hkind, hf⟩
    exact ⟨t, ts, rfl, hkind, hf⟩

/-- A group ends where its closing parenthesis or the end of input follows. -/
theorem Closes.ends {outer : List Group} {terms : Nat} {y e : Expr} {us : List Token}
    (h : Closes outer terms y us e) : Ends .or us := by
  cases outer with
  | nil =>
    obtain ⟨-, stop, rfl, hstop⟩ := h
    exact ends_of_kind (by simp [hstop]) (by simp [hstop])
  | cons g outer =>
    obtain ⟨c, vs, rfl, hc, -⟩ := h
    exact ends_of_kind (by simp [hc]) (by simp [hc])

/-- **After a connective comes a negated term**, if there is room for one more comparison. -/
theorem finishes_link_iff {outer : List Group} {g : Group} {terms : Nat} {x e : Expr} {t : Token}
    {ts : List Token} {op : Connective} (ht : t.kind = op.kind) :
    Finishes outer g terms x (t :: ts) e
      ↔ terms < termLimit ∧ ∃ n k b us, Derives .negation n k ts b us
        ∧ n ≤ nestingLimit - levels outer ∧ k ≤ termLimit - terms
        ∧ Finishes outer (g.link x op) (terms + k) b us e := by
  simp only [finishes_iff]
  constructor
  · rintro ⟨k, y, us, hrest, hk, hcloses⟩
    obtain ⟨m, j, b, vs, i, hneg, hm, hrest', rfl⟩ :=
      (Group.rest_link_iff ht hcloses.ends).mp hrest
    have hj := hneg.terms_pos (by simp)
    refine ⟨by omega, m, j, b, vs, hneg, hm, by omega, i, y, us, hrest', by omega, ?_⟩
    rwa [Nat.add_assoc]
  · rintro ⟨hterms, m, j, b, vs, hneg, hm, hj, i, y, us, hrest, hi, hcloses⟩
    refine ⟨j + i, y, us, ?_, by omega, ?_⟩
    · exact (Group.rest_link_iff ht hcloses.ends).mpr ⟨m, j, b, vs, i, hneg, hm, hrest, rfl⟩
    · rwa [← Nat.add_assoc]

/-- Before a token that is no connective, the group is complete. -/
theorem finishes_end_iff {outer : List Group} {g : Group} {terms : Nat} {x e : Expr} {t : Token}
    {ts : List Token} (hand : t.kind ≠ .and) (hor : t.kind ≠ .or) :
    Finishes outer g terms x (t :: ts) e ↔ Closes outer terms (g.close x) (t :: ts) e := by
  rw [finishes_iff]
  constructor
  · rintro ⟨k, y, us, hrest, -, hcloses⟩
    obtain ⟨rfl, rfl, rfl⟩ := (Group.rest_end_iff hand hor).mp hrest
    exact hcloses
  · intro hcloses
    exact ⟨0, _, _, (Group.rest_end_iff hand hor).mpr ⟨rfl, rfl, rfl⟩, Nat.zero_le _, hcloses⟩

/-- The negations in front of a group do not matter to what follows a negated term in it. -/
theorem finishes_negations {outer : List Group} {g : Group} {negations : List Nat} {terms : Nat}
    {x e : Expr} {ts : List Token} :
    Finishes outer { g with negations } terms x ts e ↔ Finishes outer g terms x ts e := by
  rw [finishes_iff, finishes_iff]
  rfl

/-! ## One step -/

namespace State

variable {g : Group} {outer : List Group} {terms : Nat} {e : Expr} {t : Token} {ts : List Token}

/-- **What holds of every state of a run**: where a term may begin there is room for its
comparison, and the negations in front of a complete term have taken effect. -/
structure Ready (s : State) : Prop where
  room : s.stage = .term → s.terms < termLimit
  settled : ∀ x, s.stage = .joint x → s.group.negations = []

theorem completes_complete {s : State} {x : Expr} :
    (s.complete x).Completes ts e ↔ Finishes s.outer s.group s.terms (s.group.negate x) ts e :=
  finishes_negations

theorem completes_compare {s : State} {field : NamePath} {op : Operator} {v : Operand} :
    (s.compare field op v).Completes ts e ↔ s.FinishesComparison field op v ts e :=
  completes_complete

/-- A value that a token holds is asked for when the token holds it. -/
theorem completes_withValue {α : Type} {value : Except ParseError α} {go : α → State} :
    (withValue value go).Completes ts e ↔ ∃ a, value = .ok a ∧ (go a).Completes ts e := by
  cases value with
  | error _ => exact ⟨False.elim, fun ⟨_, h, _⟩ => nomatch h⟩
  | ok a => exact ⟨fun h => ⟨a, rfl, h⟩, fun ⟨_, h, hc⟩ => Except.ok.inj h ▸ hc⟩

/-- One level more is asked for when there is room for it. -/
theorem completes_deepen {s deeper : State} :
    (s.deepen t deeper).Completes ts e ↔ s.depth < nestingLimit ∧ deeper.Completes ts e := by
  unfold deepen
  split
  · exact (and_iff_right ‹_›).symm
  · exact ⟨False.elim, fun h => absurd h.1 ‹_›⟩

/-- A token with which a negation begins. -/
theorem derives_negation_kind {n k : Nat} {x : Expr} {us : List Token}
    (h : Derives .negation n k (t :: ts) x us) :
    t.kind = .not ∨ t.kind = .leftParen ∨ t.kind = .name := by
  cases h with
  | comparison h => exact Or.inr (Or.inr (by cases h; assumption))
  | not ht _ => exact Or.inl ht
  | group ho _ _ => exact Or.inr (Or.inl ho)

theorem completes_term :
    Completes ⟨.term, g, outer, terms⟩ ts e
      ↔ ∃ n k x us, Derives .negation n k ts x us
        ∧ n ≤ nestingLimit - (levels outer + g.negations.length) ∧ k ≤ termLimit - terms
        ∧ Finishes outer g (terms + k) (g.negate x) us e := by
  rw [← depth_eq ⟨.term, g, outer, terms⟩]
  rfl

/-- A negation is one level more, in front of the same term. -/
theorem completes_term_not (ht : t.kind = .not) :
    Completes ⟨.term, g, outer, terms⟩ (t :: ts) e
      ↔ levels outer + g.negations.length < nestingLimit
        ∧ Completes
          ⟨.term, { g with negations := t.offset :: g.negations }, outer, terms⟩ ts e := by
  rw [completes_term, completes_term]
  simp only [derives_not_iff ht, List.length_cons]
  constructor
  · rintro ⟨_, k, _, us, ⟨n, x, hd, rfl, rfl⟩, hn, hk, hf⟩
    exact ⟨by omega, n, k, x, us, hd, by omega, hk, finishes_negations.mpr hf⟩
  · rintro ⟨hlevel, n, k, x, us, hd, hn, hk, hf⟩
    exact ⟨n + 1, k, _, us, ⟨n, x, hd, rfl, rfl⟩, by omega, hk, finishes_negations.mp hf⟩

/-- A parenthesis is one level more, and opens a group of its own. -/
theorem completes_term_group (ht : t.kind = .leftParen) :
    Completes ⟨.term, g, outer, terms⟩ (t :: ts) e
      ↔ levels outer + g.negations.length < nestingLimit
        ∧ Completes ⟨.term, .empty, g :: outer, terms⟩ ts e := by
  rw [completes_term, completes_term]
  simp only [derives_group_iff ht]
  constructor
  · rintro ⟨_, k, y, ws, ⟨n, c, hd, hc, rfl⟩, hn, hk, hf⟩
    have hroom : n ≤ nestingLimit - levels (g :: outer) := by
      rw [levels_cons]
      omega
    obtain ⟨m, j, x, us, i, hneg, hm, hrest, rfl⟩ := exists_derives_chain_iff.mp ⟨n, hd, hroom⟩
    refine ⟨by omega, m, j, x, us, hneg, hm, by omega, finishes_iff.mpr ?_⟩
    refine ⟨i, y, c :: ws, hrest, by omega, c, ws, rfl, hc, ?_⟩
    rwa [Nat.add_assoc]
  · rintro ⟨hlevel, m, j, x, us, hneg, hm, hj, hf⟩
    obtain ⟨i, y, _, hrest, hi, c, ws, rfl, hc, hf⟩ := finishes_iff.mp hf
    obtain ⟨n, hd, hn⟩ := exists_derives_chain_iff.mpr ⟨m, j, x, us, i, hneg, hm, hrest, rfl⟩
    rw [levels_cons] at hn
    refine ⟨n + 1, j + i, y, ws, ⟨n, c, hd, hc, rfl⟩, by omega, by omega, ?_⟩
    rwa [← Nat.add_assoc]

/-- A name begins a comparison, and counts it. -/
theorem completes_term_name (hroom : terms < termLimit) (ht : t.kind = .name) :
    Completes ⟨.term, g, outer, terms⟩ (t :: ts) e
      ↔ Completes ⟨.operator t.writtenPath, g, outer, terms + 1⟩ ts e := by
  rw [completes_term]
  simp only [derives_name_iff ht]
  constructor
  · rintro ⟨_, _, _, us, ⟨c, h, rfl, rfl, rfl⟩, -, -, hf⟩
    obtain ⟨_, hop, hv⟩ := h
    exact ⟨_, _, _, _, hop, hv, hf⟩
  · rintro ⟨op, v, us, vs, hop, hv, hf⟩
    exact ⟨0, 1, _, vs, ⟨_, .mk ht hop hv, rfl, rfl, rfl⟩, Nat.zero_le _, by omega, hf⟩

/-- **A step where a term may begin.** -/
theorem completes_stepTerm (hroom : terms < termLimit) :
    t.Legal ∧ Completes ⟨.term, g, outer, terms⟩ (t :: ts) e
      ↔ (stepTerm ⟨.term, g, outer, terms⟩ t).Completes ts e := by
  unfold stepTerm
  split
  · rename_i ht
    rw [and_iff_right (Token.legal_of_kind ht rfl), completes_deepen, depth_eq,
      completes_term_not ht]
  · rename_i ht
    rw [and_iff_right (Token.legal_of_kind ht rfl), completes_deepen, depth_eq,
      completes_term_group ht]
  · rename_i ht
    rw [completes_withValue, completes_term_name hroom ht]
    simp only [Token.path_eq_ok_iff ht, and_assoc, exists_and_left, exists_eq_left]
  · rename_i hnot hparen hname
    refine ⟨?_, False.elim⟩
    rintro ⟨-, n, k, x, us, hd, -⟩
    rcases derives_negation_kind hd with h | h | h
    · exact hnot h
    · exact hparen h
    · exact hname h

/-- **After a connective a term may begin**, if there is room for its comparison. -/
theorem completes_join {x : Expr} {op : Connective} (hsettled : g.negations = [])
    (ht : t.kind = op.kind) :
    Completes ⟨.joint x, g, outer, terms⟩ (t :: ts) e
      ↔ (join ⟨.joint x, g, outer, terms⟩ t (g.link x op)).Completes ts e := by
  have hneg : (g.link x op).negations = [] := by cases op <;> exact hsettled
  show Finishes outer g terms x (t :: ts) e ↔ _
  rw [finishes_link_iff ht]
  unfold join
  by_cases hterms : terms < termLimit
  · rw [if_pos hterms, and_iff_right hterms]
    show _ ↔ Completes ⟨.term, g.link x op, outer, terms⟩ ts e
    rw [completes_term]
    simp only [Group.negate, hneg, List.length_nil, Nat.add_zero, List.foldl_nil]
  · rw [if_neg hterms]
    exact ⟨fun h => absurd h.1 hterms, False.elim⟩

/-- **A closing parenthesis makes the group a term** of the group around it. -/
theorem completes_leave {x : Expr} (ht : t.kind = .rightParen) :
    Completes ⟨.joint x, g, outer, terms⟩ (t :: ts) e
      ↔ (leave ⟨.joint x, g, outer, terms⟩ t x).Completes ts e := by
  show Finishes outer g terms x (t :: ts) e ↔ _
  rw [finishes_end_iff (by simp [ht]) (by simp [ht])]
  cases outer with
  | nil =>
    rw [closes_nil_iff]
    exact ⟨fun h => absurd (ht.symm.trans h.1) (by simp), False.elim⟩
  | cons h outer =>
    rw [closes_cons_iff, and_iff_right ht]
    show _ ↔ Completes (complete ⟨.joint x, h, outer, terms⟩ (g.close x)) ts e
    rw [completes_complete]

/-- **At the end of input only the outermost group may end.** -/
theorem completes_conclude {x : Expr} (ht : t.kind = .endOfInput) :
    Completes ⟨.joint x, g, outer, terms⟩ (t :: ts) e
      ↔ (conclude ⟨.joint x, g, outer, terms⟩ t x).Completes ts e := by
  show Finishes outer g terms x (t :: ts) e ↔ _
  rw [finishes_end_iff (by simp [ht]) (by simp [ht])]
  cases outer with
  | nil =>
    rw [closes_nil_iff, and_iff_right ht]
    rfl
  | cons h outer =>
    rw [closes_cons_iff]
    exact ⟨fun h => absurd (ht.symm.trans h.1) (by simp), False.elim⟩

/-- **A step after a complete term.** -/
theorem completes_stepJoint {x : Expr} (hsettled : g.negations = []) :
    t.Legal ∧ Completes ⟨.joint x, g, outer, terms⟩ (t :: ts) e
      ↔ (stepJoint ⟨.joint x, g, outer, terms⟩ x t).Completes ts e := by
  unfold stepJoint
  split
  · rename_i ht
    have hop : t.kind = Connective.and.kind := ht
    rw [and_iff_right (Token.legal_of_connective hop), completes_join hsettled hop]
    rfl
  · rename_i ht
    have hop : t.kind = Connective.or.kind := ht
    rw [and_iff_right (Token.legal_of_connective hop), completes_join hsettled hop]
    rfl
  · rename_i ht
    rw [and_iff_right (Token.legal_of_kind ht rfl), completes_leave ht]
  · rename_i ht
    rw [and_iff_right (Token.legal_of_kind ht rfl), completes_conclude ht]
  · -- any other token ends no group
    rename_i hand hor hparen hstop
    refine ⟨?_, False.elim⟩
    rintro ⟨-, hf⟩
    have hcloses : Closes outer terms (g.close x) (t :: ts) e := (finishes_end_iff hand hor).mp hf
    cases outer with
    | nil => exact hstop (closes_nil_iff.mp hcloses).1
    | cons h outer => exact hparen (closes_cons_iff.mp hcloses).1

/-- **A step where an operand may begin.** -/
theorem completes_stepValue {s : State} {field : NamePath} {op : Operator} :
    (t.Legal ∧ ∃ v us, OperandAt (t :: ts) v us ∧ s.FinishesComparison field op v us e)
      ↔ (s.stepValue field op t).Completes ts e := by
  -- a bracket opens a list, of which nothing has been read
  have hopen : ∀ round : Bool, t.kind = openingKind round →
      ((t.Legal ∧ ∃ v us, OperandAt (t :: ts) v us ∧ s.FinishesComparison field op v us e)
        ↔ ∃ ls us, ItemsAt ts ls us ∧ s.FinishesList ⟨field, op, round, t.offset, []⟩ ls us e) := by
    intro round ht
    rw [and_iff_right (Token.legal_of_openingKind ht)]
    simp only [operandAt_list_iff ht]
    constructor
    · rintro ⟨_, us, ⟨ls, c, h, hc, rfl⟩, hf⟩
      exact ⟨ls, c :: us, h, c, us, rfl, hc, hf⟩
    · rintro ⟨ls, _, h, c, us, rfl, hc, hf⟩
      exact ⟨_, us, ⟨ls, c, h, hc, rfl⟩, hf⟩
  unfold stepValue
  split
  · exact hopen false ‹_›
  · exact hopen true ‹_›
  · -- the name of another field
    rename_i ht
    rw [completes_withValue]
    simp only [operandAt_name_iff ht, Token.path_eq_ok_iff ht, completes_compare]
    constructor
    · rintro ⟨hlegal, _, _, ⟨rfl, rfl⟩, hf⟩
      exact ⟨_, ⟨hlegal, rfl⟩, hf⟩
    · rintro ⟨_, ⟨hlegal, rfl⟩, hf⟩
      exact ⟨hlegal, _, _, ⟨rfl, rfl⟩, hf⟩
  · rename_i hbracket hparen hname
    split
    · -- a literal
      rename_i ht
      rw [completes_withValue]
      simp only [operandAt_literal_iff ht, Token.literal_eq_ok_iff ht, completes_compare]
      constructor
      · rintro ⟨hlegal, _, _, ⟨rfl, rfl⟩, hf⟩
        exact ⟨_, ⟨hlegal, rfl⟩, hf⟩
      · rintro ⟨_, ⟨hlegal, rfl⟩, hf⟩
        exact ⟨hlegal, _, _, ⟨rfl, rfl⟩, hf⟩
    · rename_i hliteral
      refine ⟨?_, False.elim⟩
      rintro ⟨-, v, us, hv, -⟩
      cases hv with
      | literal hl => exact hliteral hl
      | name hn => exact hname hn
      | list round ho _ _ =>
        cases round with
        | false => exact hbracket ho
        | true => exact hparen ho

/-- The closing bracket of a list has been read. -/
theorem finishesList_closing {s : State} {l : OpenList} {items : List Literal}
    (ht : t.kind = l.closing) :
    s.FinishesList l items (t :: ts) e
      ↔ s.FinishesComparison l.field l.op (.list (l.items ++ items) l.offset) ts e := by
  constructor
  · rintro ⟨c, us, hcons, -, hf⟩
    obtain ⟨rfl, rfl⟩ := List.cons.inj hcons
    exact hf
  · exact fun hf => ⟨t, ts, rfl, ht, hf⟩

theorem kind_of_finishesList {s : State} {l : OpenList} {items : List Literal}
    (h : s.FinishesList l items (t :: ts) e) : t.kind = l.closing := by
  obtain ⟨c, us, hcons, hc, -⟩ := h
  rwa [(List.cons.inj hcons).1]

/-- An item that has been read is the first of those still to come. -/
theorem finishesList_append {s : State} {l : OpenList} {v : Literal} {items : List Literal} :
    s.FinishesList { l with items := l.items ++ [v] } items ts e
      ↔ s.FinishesList l (v :: items) ts e := by
  simp only [FinishesList, List.append_assoc, List.singleton_append]
  rfl

/-- A token that closes a list stands for itself. -/
theorem legal_of_closing {l : OpenList} (ht : t.kind = l.closing) : t.Legal :=
  Token.legal_of_kind ht (by unfold OpenList.closing; split <;> rfl)

/-- **A step where an item or the end of a list may come.** -/
theorem completes_stepItem {s : State} {l : OpenList} :
    (t.Legal ∧ ∃ ls us, ItemsAt (t :: ts) ls us ∧ s.FinishesList l ls us e)
      ↔ (s.stepItem l t).Completes ts e := by
  unfold stepItem
  by_cases hclosing : t.kind = l.closing
  · rw [if_pos hclosing, and_iff_right (legal_of_closing hclosing)]
    have hl : t.kind.isLiteral = false := hclosing ▸ isLiteral_closingKind l.round
    refine Iff.trans ?_ completes_compare.symm
    rw [← List.append_nil l.items, ← finishesList_closing hclosing]
    constructor
    · rintro ⟨ls, us, hs, hf⟩
      cases hs with
      | none => exact hf
      | last ht => exact absurd ht (by simp [hl])
      | more ht _ _ => exact absurd ht (by simp [hl])
    · exact fun hf => ⟨_, _, .none, hf⟩
  · rw [if_neg hclosing]
    split
    · -- a literal is the last item, or a comma follows it
      rename_i ht
      rw [completes_withValue]
      constructor
      · rintro ⟨hlegal, ls, us, hs, hf⟩
        refine ⟨_, (Token.literal_eq_ok_iff ht _).mpr ⟨hlegal, rfl⟩, ?_⟩
        cases hs with
        | none => exact absurd (kind_of_finishesList hf) hclosing
        | last _ => exact Or.inl (finishesList_append.mpr hf)
        | more _ hcomma hs => exact Or.inr ⟨_, _, _, _, rfl, hcomma, hs, finishesList_append.mpr hf⟩
      · rintro ⟨v, hv, hf⟩
        obtain ⟨hlegal, rfl⟩ := (Token.literal_eq_ok_iff ht v).mp hv
        rcases hf with hf | ⟨u, us, ls, vs, rfl, hcomma, hs, hf⟩
        · exact ⟨hlegal, _, _, .last ht, finishesList_append.mp hf⟩
        · exact ⟨hlegal, _, _, .more ht hcomma hs, finishesList_append.mp hf⟩
    · rename_i hliteral
      refine ⟨?_, False.elim⟩
      rintro ⟨-, ls, us, hs, hf⟩
      cases hs with
      | none => exact hclosing (kind_of_finishesList hf)
      | last ht => exact hliteral ht
      | more ht _ _ => exact hliteral ht

/-- **A step where a comma or the end of a list may come.** -/
theorem completes_stepSeparator {s : State} {l : OpenList} :
    (t.Legal ∧ (s.FinishesList l [] (t :: ts) e
      ∨ ∃ u us ls vs, t :: ts = u :: us ∧ u.kind = .comma ∧ ItemsAt us ls vs
        ∧ s.FinishesList l ls vs e))
      ↔ (s.stepSeparator l t).Completes ts e := by
  unfold stepSeparator
  by_cases hcomma : t.kind = .comma
  · have hlegal : t.Legal := Token.legal_of_kind hcomma rfl
    rw [if_pos hcomma, and_iff_right hlegal]
    constructor
    · rintro (hf | ⟨u, us, ls, vs, hcons, -, hs, hf⟩)
      · exact absurd ((kind_of_finishesList hf).symm.trans hcomma) (closingKind_ne_comma l.round)
      · obtain ⟨rfl, rfl⟩ := List.cons.inj hcons
        exact ⟨ls, vs, hs, hf⟩
    · rintro ⟨ls, vs, hs, hf⟩
      exact Or.inr ⟨t, ts, ls, vs, rfl, hcomma, hs, hf⟩
  · rw [if_neg hcomma]
    have hcons : ¬ ∃ u us ls vs, t :: ts = u :: us ∧ u.kind = .comma ∧ ItemsAt us ls vs
        ∧ s.FinishesList l ls vs e := by
      rintro ⟨u, us, ls, vs, hcons, hu, -⟩
      exact hcomma ((List.cons.inj hcons).1 ▸ hu)
    rw [or_iff_left hcons]
    split
    · rename_i hclosing
      rw [and_iff_right (legal_of_closing hclosing), finishesList_closing hclosing, List.append_nil]
      exact completes_compare.symm
    · rename_i hclosing
      exact ⟨fun h => hclosing (kind_of_finishesList h.2), False.elim⟩

/-- **A step after the field of a comparison.** -/
theorem completes_stepOperator {field : NamePath} :
    t.Legal ∧ Completes ⟨.operator field, g, outer, terms⟩ (t :: ts) e
      ↔ (step ⟨.operator field, g, outer, terms⟩ t).Completes ts e := by
  simp only [step]
  split
  · rename_i op ht
    rw [and_iff_right (Token.legal_of_kind ht rfl)]
    constructor
    · rintro ⟨op', v, us, vs, hop, hv, hf⟩
      cases hop with
      | symbol ht' =>
        obtain rfl := TokenKind.operator.inj (ht.symm.trans ht')
        exact ⟨v, vs, hv, hf⟩
      | notIn ht' _ => exact absurd (ht.symm.trans ht') (by simp)
    · rintro ⟨v, vs, hv, hf⟩
      exact ⟨op, v, ts, vs, .symbol ht, hv, hf⟩
  · rename_i ht
    rw [and_iff_right (Token.legal_of_kind ht rfl)]
    constructor
    · rintro ⟨op', v, us, vs, hop, hv, hf⟩
      cases hop with
      | symbol ht' => exact absurd (ht.symm.trans ht') (by simp)
      | notIn _ hu => exact ⟨_, us, v, vs, rfl, hu, hv, hf⟩
    · rintro ⟨u, us, v, vs, rfl, hu, hv, hf⟩
      exact ⟨.notIn, v, us, vs, .notIn ht hu, hv, hf⟩
  · rename_i hop hnot
    refine ⟨?_, False.elim⟩
    rintro ⟨-, op', v, us, vs, h, -⟩
    cases h with
    | symbol ht => exact hop op' ht
    | notIn ht _ => exact hnot ht

/-- **A step between the two words of `not in`.** -/
theorem completes_stepNegated {field : NamePath} :
    t.Legal ∧ Completes ⟨.negated field, g, outer, terms⟩ (t :: ts) e
      ↔ (step ⟨.negated field, g, outer, terms⟩ t).Completes ts e := by
  simp only [step]
  split
  · rename_i ht
    have hlegal : t.Legal := Token.legal_of_kind ht rfl
    rw [and_iff_right hlegal]
    constructor
    · rintro ⟨u, us, v, vs, hcons, -, hv, hf⟩
      obtain ⟨rfl, rfl⟩ := List.cons.inj hcons
      exact ⟨v, vs, hv, hf⟩
    · rintro ⟨v, vs, hv, hf⟩
      exact ⟨t, ts, v, vs, rfl, ht, hv, hf⟩
  · rename_i ht
    refine ⟨?_, False.elim⟩
    rintro ⟨-, u, us, v, vs, hcons, hu, -⟩
    exact ht ((List.cons.inj hcons).1 ▸ hu)

/-- **One step does not change what is asked for**: the tokens complete a state exactly when the
first of them is legal and the others complete the state after it. -/
theorem completes_step {s : State} (hs : s.Ready) :
    t.Legal ∧ s.Completes (t :: ts) e ↔ (s.step t).Completes ts e := by
  obtain ⟨stage, g, outer, terms⟩ := s
  cases stage with
  | term => exact completes_stepTerm (hs.room rfl)
  | operator field => exact completes_stepOperator
  | negated field => exact completes_stepNegated
  | value field op => exact completes_stepValue
  | item l => exact completes_stepItem
  | separator l => exact completes_stepSeparator
  | joint x => exact completes_stepJoint (hs.settled x rfl)

/-! ## A whole run -/

theorem ready_initial : initial.Ready := ⟨fun _ => by decide, nofun⟩

/-- A state where neither a term may begin nor a term is complete is ready as it is. -/
theorem ready_of_stage {s : State} (hterm : s.stage ≠ .term) (hjoint : ∀ x, s.stage ≠ .joint x) :
    s.Ready :=
  ⟨fun h => absurd h hterm, fun x h => absurd h (hjoint x)⟩

theorem ready_complete (s : State) (x : Expr) : (s.complete x).Ready := ⟨nofun, fun _ _ => rfl⟩

theorem ready_of_withValue {α : Type} {value : Except ParseError α} {go : α → State} {s' : State}
    (hgo : ∀ a, (go a).Ready) (h : withValue value go = .next s') : s'.Ready := by
  cases value with
  | error _ => exact nomatch h
  | ok a => exact Outcome.next.inj h ▸ hgo a

theorem ready_of_stepTerm {s s' : State} (hs : s.Ready) (hstage : s.stage = .term)
    (h : s.stepTerm t = .next s') : s'.Ready := by
  have hdeepen : ∀ g outer, s.deepen t { s with group := g, outer } = .next s' → s'.Ready := by
    intro g outer h
    unfold deepen at h
    split at h
    · obtain rfl := Outcome.next.inj h
      exact ⟨fun _ => hs.room hstage, fun x hx => absurd (hstage.symm.trans hx) (by simp)⟩
    · exact nomatch h
  unfold stepTerm at h
  split at h
  · exact hdeepen _ _ h
  · exact hdeepen _ _ h
  · exact ready_of_withValue (fun _ => ready_of_stage (by simp) (by simp)) h
  · exact nomatch h

theorem ready_of_stepJoint {s s' : State} {x : Expr} (h : s.stepJoint x t = .next s') :
    s'.Ready := by
  have hjoin : ∀ g, s.join t g = .next s' → s'.Ready := by
    intro g h
    unfold join at h
    split at h
    · exact Outcome.next.inj h ▸ ⟨fun _ => ‹_›, nofun⟩
    · exact nomatch h
  unfold stepJoint at h
  split at h
  · exact hjoin _ h
  · exact hjoin _ h
  · unfold leave at h
    split at h
    · exact nomatch h
    · exact Outcome.next.inj h ▸ ready_complete _ _
  · unfold conclude at h
    split at h <;> exact nomatch h
  · exact nomatch h

/-- **A step leads to a ready state.** -/
theorem ready_of_step {s s' : State} (hs : s.Ready) (h : s.step t = .next s') : s'.Ready := by
  unfold step at h
  split at h
  · exact ready_of_stepTerm hs ‹_› h
  · split at h
    · exact Outcome.next.inj h ▸ ready_of_stage (by simp) (by simp)
    · exact Outcome.next.inj h ▸ ready_of_stage (by simp) (by simp)
    · exact nomatch h
  · split at h
    · exact Outcome.next.inj h ▸ ready_of_stage (by simp) (by simp)
    · exact nomatch h
  · unfold stepValue at h
    split at h
    · exact Outcome.next.inj h ▸ ready_of_stage (by simp) (by simp)
    · exact Outcome.next.inj h ▸ ready_of_stage (by simp) (by simp)
    · exact ready_of_withValue (fun _ => ready_complete _ _) h
    · split at h
      · exact ready_of_withValue (fun _ => ready_complete _ _) h
      · exact nomatch h
  · unfold stepItem at h
    split at h
    · exact Outcome.next.inj h ▸ ready_complete _ _
    · split at h
      · exact ready_of_withValue (fun _ => ready_of_stage (by simp) (by simp)) h
      · exact nomatch h
  · unfold stepSeparator at h
    split at h
    · exact Outcome.next.inj h ▸ ready_of_stage (by simp) (by simp)
    · split at h
      · exact Outcome.next.inj h ▸ ready_complete _ _
      · exact nomatch h
  · exact ready_of_stepJoint h

theorem withValue_ne_accept {α : Type} {value : Except ParseError α} {go : α → State} :
    withValue value go ≠ .accept e := by
  cases value <;> exact nofun

/-- Only the end of input ends a query. -/
theorem kind_of_step_accept {s : State} (h : s.step t = .accept e) : t.kind = .endOfInput := by
  unfold step at h
  -- only `conclude` accepts, and it is reached with the end of input alone
  grind [stepTerm, deepen, withValue_ne_accept, stepValue, stepItem, stepSeparator, stepJoint, join,
    leave]

/-- Nothing is read after the end of input. -/
theorem step_endOfInput_ne_next {s s' : State} (ht : t.kind = .endOfInput) :
    s.step t ≠ .next s' := by
  intro h
  unfold step at h
  grind [stepTerm, stepValue, stepItem, stepSeparator, stepJoint, conclude, TokenKind.isLiteral,
    OpenList.closing]

end State

/-- A run goes on as its first step does. -/
theorem run_cons_eq_ok_iff {s : State} (hs : s.Ready) {t : Token} {ts : List Token} {e : Expr}
    (last : Nat) (hend : t.kind = .endOfInput → ts = [])
    (hnext : ∀ s', s.step t = .next s' →
      (run s' t.offset (ts.map .ok) = .ok e ↔ (∀ u ∈ ts, u.Legal) ∧ s'.Completes ts e)) :
    run s last ((t :: ts).map .ok) = .ok e
      ↔ (∀ u ∈ t :: ts, u.Legal) ∧ s.Completes (t :: ts) e := by
  have hstep : t.Legal ∧ s.Completes (t :: ts) e ↔ (s.step t).Completes ts e :=
    State.completes_step hs
  rw [List.forall_mem_cons, and_right_comm, hstep]
  rw [List.map_cons]
  unfold run
  cases hout : s.step t with
  | accept x =>
    obtain rfl := hend (State.kind_of_step_accept hout)
    simp [Outcome.Completes]
  | next s' => exact (hnext s' hout).trans and_comm
  | refuse taken err => exact ⟨nofun, fun h => h.1.elim⟩

/-- **A run accepts what completes its first state**, if the tokens are legal. The induction is on
the tokens, with the state as it is after those already read. -/
theorem run_eq_ok_iff {s : State} (hs : s.Ready) {body : List Token} {stop : Token} {e : Expr}
    (hbody : ∀ t ∈ body, t.kind ≠ .endOfInput) (hstop : stop.kind = .endOfInput) (last : Nat) :
    run s last ((body ++ [stop]).map .ok) = .ok e
      ↔ (∀ t ∈ body ++ [stop], t.Legal) ∧ s.Completes (body ++ [stop]) e := by
  induction body generalizing s last with
  | nil =>
    -- the run is over with the end of input, whatever the state is
    refine run_cons_eq_ok_iff hs last (fun _ => rfl) ?_
    exact fun s' h => absurd h (State.step_endOfInput_ne_next hstop)
  | cons t body ih =>
    rw [List.forall_mem_cons] at hbody
    refine run_cons_eq_ok_iff hs last (fun h => absurd h hbody.1) ?_
    exact fun s' h => ih (State.ready_of_step hs h) hbody.2 t.offset

/-- A run over well-formed tokens can only fail on their order. -/
theorem exists_parse_of_run_eq_error {s : State} {last : Nat} {ts : List Token} {err : SyntaxError}
    (h : run s last (ts.map .ok) = .error err) : ∃ e, err = .parse e := by
  induction ts generalizing s last with
  | nil =>
    rw [List.map_nil] at h
    unfold run at h
    split at h
    · exact nomatch h
    · exact ⟨_, (Except.error.inj h).symm⟩
    · exact ⟨_, (Except.error.inj h).symm⟩
  | cons t ts ih =>
    rw [List.map_cons] at h
    unfold run at h
    split at h
    · exact nomatch h
    · exact ih h
    · rename_i taken e _
      refine ⟨e, (Except.error.inj h).symm.trans ?_⟩
      cases ts <;> cases taken <;> rfl

/-- A run does not accept before the end of input, so a malformed token before it is an error. -/
theorem run_append_error_ne_ok {s : State} {last : Nat} {body : List Token} {err : LexError}
    {e : Expr} (hbody : ∀ t ∈ body, t.kind ≠ .endOfInput) :
    run s last (body.map .ok ++ [.error err]) ≠ .ok e := by
  induction body generalizing s last with
  | nil => exact nofun
  | cons t body ih =>
    rw [List.forall_mem_cons] at hbody
    rw [List.map_cons, List.cons_append]
    unfold run
    cases hout : s.step t with
    | accept x => exact absurd (State.kind_of_step_accept hout) hbody.1
    | next s' => exact ih hbody.2
    | refuse taken err => exact nofun

/-- **What completes the first state is a query** that keeps the limits. -/
theorem completes_initial_iff {ts : List Token} {e : Expr} :
    State.initial.Completes ts e
      ↔ ∃ n k, IsQuery n k ts e ∧ n ≤ nestingLimit ∧ k ≤ termLimit := by
  have hterm : State.initial.Completes ts e
      ↔ ∃ m j x vs, Derives .negation m j ts x vs ∧ m ≤ nestingLimit ∧ j ≤ termLimit
        ∧ Finishes [] Group.empty j x vs e := by
    refine State.completes_term.trans ?_
    simp [levels, Group.empty, Group.negate]
  rw [hterm]
  constructor
  · rintro ⟨m, j, x, vs, hneg, hm, hj, hf⟩
    obtain ⟨i, y, us, hrest, hi, rfl, stop, rfl, hstop⟩ := finishes_iff.mp hf
    obtain ⟨n, hd, hn⟩ := exists_derives_chain_iff.mpr ⟨m, j, x, vs, i, hneg, hm, hrest, rfl⟩
    exact ⟨n, j + i, ⟨stop, hstop, hd⟩, hn, by omega⟩
  · rintro ⟨n, k, ⟨stop, hstop, hd⟩, hn, hk⟩
    obtain ⟨m, j, x, vs, i, hneg, hm, hrest, rfl⟩ := exists_derives_chain_iff.mp ⟨n, hd, hn⟩
    refine ⟨m, j, x, vs, hneg, hm, by omega, finishes_iff.mpr ?_⟩
    exact ⟨i, e, [stop], hrest, by omega, rfl, stop, rfl, hstop⟩

end Parser

/-! ## Queries -/

/-- **Whether tokens end with the end of input**, which stands nowhere else. -/
def EndsOnce (ts : List Token) : Prop :=
  ∃ body stop, ts = body ++ [stop] ∧ stop.kind = .endOfInput ∧ ∀ t ∈ body, t.kind ≠ .endOfInput

/-- **Tokens are read as a query exactly when they are one** that keeps the limits and
has legal tokens only. -/
theorem parseTokens_eq_ok_iff {ts : List Token} (hts : EndsOnce ts) {e : Expr} :
    parseTokens (ts.map .ok) = .ok e
      ↔ (∃ n k, IsQuery n k ts e ∧ n ≤ nestingLimit ∧ k ≤ termLimit) ∧ ∀ t ∈ ts, t.Legal := by
  obtain ⟨body, stop, rfl, hstop, hbody⟩ := hts
  unfold parseTokens
  rw [Parser.run_eq_ok_iff Parser.State.ready_initial hbody hstop, Parser.completes_initial_iff]
  exact and_comm

/-- **Exactly the queries are accepted**: tokens that end once are read as the tree `e` if and
only if the grammar derives `e` from them with at most 64 levels and 256 comparisons, no name has
an empty segment and every number is in range. The grammar derives no other tree from them. -/
theorem parseTokens_accepts_exactly {ts : List Token} (hts : EndsOnce ts) (e : Expr) :
    (parseTokens (ts.map .ok) = .ok e
      ↔ (∃ nesting, IsQuery nesting e.comparisons.length ts e ∧ nesting ≤ 64)
        ∧ e.comparisons.length ≤ 256 ∧ ∀ t ∈ ts, t.Legal)
    ∧ ∀ {n k n' k' : Nat} {x : Expr}, IsQuery n k ts e → IsQuery n' k' ts x →
        x = e ∧ n' = n ∧ k' = k := by
  constructor
  · rw [parseTokens_eq_ok_iff hts]
    constructor
    · rintro ⟨⟨n, k, hq, hn, hk⟩, hlegal⟩
      obtain rfl : k = e.comparisons.length := hq.terms_eq
      exact ⟨⟨n, hq, hn⟩, hk, hlegal⟩
    · rintro ⟨⟨n, hq, hn⟩, hk, hlegal⟩
      exact ⟨⟨n, _, hq, hn, hk⟩, hlegal⟩
  · intro n k n' k' x hq hx
    obtain ⟨hn, hk, he⟩ := hx.unique hq
    exact ⟨he, hn, hk⟩

/-- The tokens of `not a in [1,] or b = null`. -/
theorem parseTokens_negated_list :
    let ts : List Token := [⟨.not, "not", 0⟩, ⟨.name, "a", 4⟩, ⟨.operator .isIn, "in", 6⟩,
      ⟨.leftBracket, "[", 9⟩, ⟨.int, "1", 10⟩, ⟨.comma, ",", 11⟩, ⟨.rightBracket, "]", 12⟩,
      ⟨.or, "or", 14⟩, ⟨.name, "b", 17⟩, ⟨.operator .equal, "=", 19⟩, ⟨.null, "null", 21⟩,
      .endOfInput 25]
    let e : Expr := .logical .or
      (.not (.comparison ⟨⟨["a"], 4⟩, .isIn, .list [⟨.int 1, 10⟩] 9, 4⟩) 0)
      (.comparison ⟨⟨["b"], 17⟩, .equal, .literal ⟨.null, 21⟩, 17⟩)
    EndsOnce ts ∧ ∃ nesting, IsQuery nesting e.comparisons.length ts e ∧ nesting ≤ 64
      ∧ ∀ {n k : Nat} {x : Expr}, IsQuery n k ts x → x = e := by
  intro ts e
  have hts : EndsOnce ts := ⟨ts.dropLast, .endOfInput 25, rfl, rfl, by decide⟩
  have hread : parseTokens (ts.map .ok) = .ok e := rfl
  obtain ⟨haccepts, hunique⟩ := parseTokens_accepts_exactly hts e
  obtain ⟨⟨nesting, hquery, hlimit⟩, -⟩ := haccepts.mp hread
  exact ⟨hts, nesting, hquery, hlimit, fun h => (hunique hquery h).1⟩

end RecordQuery
