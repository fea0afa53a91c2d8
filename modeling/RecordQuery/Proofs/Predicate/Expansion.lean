import RecordQuery.Predicate.Evaluation
import RecordQuery.Proofs.Predicate.Typing

/-!
# Operators that are short for others

A comparison may be put in other words: `p != v` says that `p = v` does not match, `p >= v` that
`p > v` or `p = v` does, and `p in [v, w]` that `p = v` or `p = w` does (`comparison_expands`).
A field may have many values on a record, or none, and matches when one of its values does. So
the expansions are no matter of course: a negated operator negates what all the values say
together, not what each one says.

An operand stands for the same target beside a field whatever the operator is (`Aims`). So what a
comparison says on a record is one equation (`answers_iff`), in which the operator occurs three
times: it is one of the field's type, it takes a list exactly if the operand is one, and it is
what the values are compared by. Null is apart, and has a test of its own (`answers_null_iff`).
-/

namespace RecordQuery

/-! ## Operators -/

namespace Operator

/-- **The negated operators** and what they negate. -/
def negations : List (Operator × Operator) :=
  [(.notEqual, .equal), (.notContains, .contains), (.notIn, .isIn)]

/-- **The operators that include equality** and the strict ones. -/
def widenings : List (Operator × Operator) := [(.greaterEqual, .greater), (.lessEqual, .less)]

/-- The operators that are not negated. -/
def positives : List Operator :=
  [.equal, .less, .lessEqual, .greater, .greaterEqual, .contains, .isIn]

end Operator

/-- A type has a negated operator when it has the positive one. -/
theorem mem_operators_of_negation {neg pos : Operator} (h : (neg, pos) ∈ Operator.negations)
    (t : FieldType) :
    neg ∈ t.operators ↔ pos ∈ t.operators := by
  have htable : ∀ x ∈ Operator.negations, x.1 ∈ t.operators ↔ x.2 ∈ t.operators := by
    cases t <;> decide
  exact htable _ h

/-- A type has a wide operator when it has the strict one and equality. -/
theorem mem_operators_of_widening {wide strict : Operator} (h : (wide, strict) ∈ Operator.widenings)
    (t : FieldType) : wide ∈ t.operators ↔ strict ∈ t.operators ∧ .equal ∈ t.operators := by
  have htable : ∀ x ∈ Operator.widenings, x.1 ∈ t.operators
      ↔ x.2 ∈ t.operators ∧ .equal ∈ t.operators := by
    cases t <;> decide
  exact htable _ h

/-- A type whose values may be in lists has equality. -/
theorem equal_mem_operators {t : FieldType} (h : .isIn ∈ t.operators) : .equal ∈ t.operators := by
  cases t <;> simp [FieldType.operators, Operator.all] at h ⊢

/-! ## What values say -/

/-- The negated operators negate what the values say together. -/
theorem comparisonHolds_of_negation {neg pos : Operator} (h : (neg, pos) ∈ Operator.negations)
    (record : Json) (f : FieldRef) (t : Target) :
    comparisonHolds record f neg t = !comparisonHolds record f pos t := by
  have htable : ∀ x ∈ Operator.negations, x.1.positive? = some x.2 ∧ x.2.positive? = none := by
    decide
  obtain ⟨hneg, hpos⟩ := htable _ h
  unfold comparisonHolds
  simp only [hneg, hpos]

/-- One of the elements has one of two properties when one has the first or one the second. -/
theorem any_or {α : Type} (xs : List α) (p q : α → Bool) :
    (xs.any fun x => p x || q x) = (xs.any p || xs.any q) := by
  grind

/-- **The wide operators say that the values stand in the strict relation or are equal.** One
value may be greater and another one equal; either makes the wide operator match. -/
theorem comparisonHolds_of_widening {wide strict : Operator}
    (h : (wide, strict) ∈ Operator.widenings) (record : Json) (f : FieldRef) (t : Target) :
    comparisonHolds record f wide t
      = (comparisonHolds record f strict t || comparisonHolds record f .equal t) := by
  have hstands : ∀ v operand,
      stands v wide operand = (stands v strict operand || stands v .equal operand) := by
    intro v operand
    simp only [Operator.widenings, List.mem_cons, List.not_mem_nil, or_false, Prod.mk.injEq] at h
    obtain ⟨rfl, rfl⟩ | ⟨rfl, rfl⟩ := h <;> rfl
  have htable : ∀ x ∈ Operator.widenings, x.1.positive? = none ∧ x.2.positive? = none := by decide
  obtain ⟨hwide, hstrict⟩ := htable _ h
  have hequal : Operator.equal.positive? = none := rfl
  unfold comparisonHolds
  simp only [hwide, hstrict, hequal]
  cases t with
  | scalar operand => simp only [anyStands, hstands, any_or]
  | list operands => simp only [anyStands, Bool.or_self]
  | field r => simp only [anyStands, hstands, any_or]

/-- **A value is in a list when it is equal to an operand in it.** -/
theorem comparisonHolds_isIn_iff {record : Json} {f : FieldRef} {operands : List Scalar} :
    comparisonHolds record f .isIn (.list operands) = true
      ↔ ∃ operand ∈ operands, comparisonHolds record f .equal (.scalar operand) = true := by
  simp only [comparisonHolds, Operator.positive?, anyStands, List.any_eq_true]
  constructor
  · rintro ⟨v, hv, operand, hoperand, h⟩
    exact ⟨operand, hoperand, v, hv, h⟩
  · rintro ⟨operand, hoperand, v, hv, h⟩
    exact ⟨v, hv, operand, hoperand, h⟩

/-- Null stands to no operand as a positive operator says. -/
theorem stands_of_isNull {v : Json} {op : Operator} (hv : v.isNull = true)
    (hop : op ∈ Operator.positives) (operand : Scalar) : stands v op operand = false := by
  cases v with
  | null =>
    have hcompare : compareValue? .null operand = none := by cases operand <;> rfl
    have hcontains : containsText .null operand = false := by cases operand <;> rfl
    simp only [Operator.positives, List.mem_cons, List.not_mem_nil, or_false] at hop
    rcases hop with rfl | rfl | rfl | rfl | rfl | rfl | rfl <;> simp [stands, hcompare, hcontains]
  | _ => exact nomatch hv

/-- **No positive operator matches null values.** -/
theorem comparisonHolds_of_isNull {record : Json} {f : FieldRef} {op : Operator}
    (hop : op ∈ Operator.positives) (hnull : ∀ v ∈ valuesAt record f.path, v.isNull = true)
    (t : Target) :
    comparisonHolds record f op t = false := by
  have hpositive : ∀ op ∈ Operator.positives, op.positive? = none := by decide
  have hequal : .equal ∈ Operator.positives := by decide
  unfold comparisonHolds
  simp only [hpositive op hop]
  cases t with
  | scalar operand =>
    exact List.any_eq_false.mpr fun v hv => by simp [stands_of_isNull (hnull v hv) hop]
  | list operands =>
    exact List.any_eq_false.mpr fun v hv => by simp [stands_of_isNull (hnull v hv) hequal]
  | field r =>
    refine List.any_eq_false.mpr fun v hv =>
      Bool.not_eq_true _ ▸ List.any_eq_false.mpr fun operand _ => ?_
    simp [stands_of_isNull (hnull v hv) hop]

/-! ## What a comparison says -/

/-- Whether an operand is a list. -/
def Operand.isList : Operand → Bool
  | .list _ _ => true
  | _ => false

/-- Whether an operand is null. -/
def Operand.isNull : Operand → Bool
  | .literal l => l.value = .null
  | _ => false

/-- **What an operand stands for** beside a field, by whatever operator the two are compared. -/
inductive Aims (s : Schema) (F : Field) : Operand → Target → Prop
  | list {items : List Literal} {offset : Nat} {vs : List Scalar}
      (hvs : List.Forall₂ (fun l v => Coerces F l.value v) items vs) :
        Aims s F (.list items offset) (.list vs)
  | literal {l : Literal} {v : Scalar} (hv : Coerces F l.value v) :
      Aims s F (.literal l) (.scalar v)
  | name {p : NamePath} {G : Field} (hG : s.resolve p.segments = .ok G)
      (ht : F.type = G.type ∨ F.type = .text ∧ G.type = .choice
        ∨ F.type = .choice ∧ G.type = .text) :
      Aims s F (.name p) (.field ⟨G.path, G.type⟩)

variable {s : Schema} {F : Field} {op : Operator} {v : Operand} {t : Target} {p : Predicate}

/-- A literal has one value in a type. -/
theorem Coerces.unique {l : LiteralValue} {x y : Scalar} (hx : Coerces F l x)
    (hy : Coerces F l y) : x = y :=
  Except.ok.inj ((coerce_eq_ok_iff.mpr hx).symm.trans (coerce_eq_ok_iff.mpr hy))

/-- An operand stands for one target. -/
theorem Aims.unique {t' : Target} (h : Aims s F v t) (h' : Aims s F v t') : t = t' := by
  cases h with
  | list hvs =>
    cases h' with
    | list hvs' =>
      have hitems :=
        (mapM_coerceItem_eq_ok_iff.mpr hvs).symm.trans (mapM_coerceItem_eq_ok_iff.mpr hvs')
      rw [Except.ok.inj hitems]
  | literal hv =>
    cases h' with
    | literal hv' => rw [hv.unique hv']
  | name hG ht =>
    cases h' with
    | name hG' ht' => rw [Except.ok.inj (hG.symm.trans hG')]

/-- **A comparison with what is not null** compares the field with what the operand stands for. An
empty list has predicates of its own, which say the same. -/
theorem Compares.aims (hnull : v.isNull = false) (h : Compares s F op v p) :
    op ∈ F.type.operators ∧ op.takesList = v.isList
      ∧ ∃ t, Aims s F v t
        ∧ ∀ record, p.holds record = comparisonHolds record ⟨F.path, F.type⟩ op t := by
  have htakes : ∀ {op : Operator}, ¬ (op = .isIn ∨ op = .notIn) → op.takesList = false := fun hin =>
    Bool.eq_false_iff.mpr fun h => hin (takesList_eq_true_iff.mp h)
  cases h with
  | isNull _ => exact nomatch hnull
  | isNotNull _ => exact nomatch hnull
  | inEmpty hop hin =>
    subst hin
    refine ⟨hop, rfl, .list [], .list .nil, fun record => ?_⟩
    simp [Predicate.holds, comparisonHolds, Operator.positive?, anyStands]
  | notInEmpty hop hin =>
    subst hin
    refine ⟨hop, rfl, .list [], .list .nil, fun record => ?_⟩
    simp [Predicate.holds, comparisonHolds, Operator.positive?, anyStands]
  | list hop hin _ hvs => exact ⟨hop, takesList_eq_true_iff.mpr hin, _, .list hvs, fun _ => rfl⟩
  | literal _ hop hin hv => exact ⟨hop, htakes hin, _, .literal hv, fun _ => rfl⟩
  | name hop hin hG ht => exact ⟨hop, htakes hin, _, .name hG ht, fun _ => rfl⟩

/-- **A field can be compared with what an operand stands for** by every operator of its type that
takes a list exactly if the operand is one. -/
theorem Aims.exists_compares (h : Aims s F v t) (hnull : v.isNull = false)
    (hop : op ∈ F.type.operators) (hlist : op.takesList = v.isList) :
    ∃ p, Compares s F op v p := by
  have hnotIn : v.isList = false → ¬ (op = .isIn ∨ op = .notIn) := fun hv h =>
    absurd (takesList_eq_true_iff.mpr h) (by simp [hlist, hv])
  cases h with
  | @list items offset vs hvs =>
    have hin : op = .isIn ∨ op = .notIn := takesList_eq_true_iff.mp hlist
    by_cases hne : items = []
    · subst hne
      rcases hin with rfl | rfl
      · exact ⟨_, .inEmpty hop rfl⟩
      · exact ⟨_, .notInEmpty hop rfl⟩
    · exact ⟨_, .list hop hin hne hvs⟩
  | literal hv => exact ⟨_, .literal (by simpa [Operand.isNull] using hnull) hop (hnotIn rfl) hv⟩
  | name hG ht => exact ⟨_, .name hop (hnotIn rfl) hG ht⟩

namespace Comparison

/-- The comparison of the same field and operand by another operator. -/
def withOp (c : Comparison) (op : Operator) : Comparison := { c with op }

/-- The comparison of the same field, for equality, with one literal. -/
def withItem (c : Comparison) (l : Literal) : Comparison :=
  { c with op := .equal, value := .literal l }

/-- **Whether a comparison has a predicate.** -/
def Translates (s : Schema) (c : Comparison) : Prop := ∃ p, translate s (.comparison c) = .ok p

/-- **Whether a comparison matches a record**: it has a predicate, and that holds. -/
def Matches (s : Schema) (c : Comparison) (record : Json) : Prop :=
  ∃ p, translate s (.comparison c) = .ok p ∧ p.holds record = true

instance (s : Schema) (c : Comparison) : Decidable (c.Translates s) :=
  match h : translate s (.comparison c) with
  | .ok p => isTrue ⟨p, h⟩
  | .error _ => isFalse fun ⟨_, hp⟩ => nomatch h.symm.trans hp

instance (s : Schema) (c : Comparison) (record : Json) : Decidable (c.Matches s record) :=
  match h : translate s (.comparison c) with
  | .ok p =>
    decidable_of_iff (p.holds record = true)
      ⟨fun hp => ⟨p, h, hp⟩, fun ⟨_, hp, hholds⟩ => Except.ok.inj (hp.symm.trans h) ▸ hholds⟩
  | .error _ => isFalse fun ⟨_, hp, _⟩ => nomatch h.symm.trans hp

/-- What a comparison says on a record. -/
def Answers (s : Schema) (c : Comparison) (record : Json) (b : Bool) : Prop :=
  ∃ p, translate s (.comparison c) = .ok p ∧ p.holds record = b

end Comparison

variable {c : Comparison} {record : Json} {b : Bool}

/-- A comparison has a predicate when it says something. -/
theorem translates_iff_answers (record : Json) : c.Translates s ↔ ∃ b, c.Answers s record b :=
  ⟨fun ⟨p, hp⟩ => ⟨_, p, hp, rfl⟩, fun ⟨_, p, hp, _⟩ => ⟨p, hp⟩⟩

/-- A comparison says one thing. -/
theorem Comparison.Answers.unique {b' : Bool} (h : c.Answers s record b)
    (h' : c.Answers s record b') : b = b' := by
  obtain ⟨p, hp, rfl⟩ := h
  obtain ⟨p', hp', rfl⟩ := h'
  rw [Except.ok.inj (hp.symm.trans hp')]

/-- A comparison matches when it says so. -/
theorem Comparison.Answers.matches_iff (h : c.Answers s record b) :
    c.Matches s record ↔ b = true := by
  constructor
  · exact fun hmatches => h.unique hmatches
  · rintro rfl
    exact h

/-- **What a comparison says on a record**, but with null. -/
theorem answers_iff (hnull : c.value.isNull = false) :
    c.Answers s record b ↔ ∃ F t, s.resolve c.field.segments = .ok F ∧ Aims s F c.value t
      ∧ c.op ∈ F.type.operators ∧ c.op.takesList = c.value.isList
      ∧ comparisonHolds record ⟨F.path, F.type⟩ c.op t = b := by
  constructor
  · rintro ⟨p, hp, rfl⟩
    obtain - | - | - | ⟨hF, h⟩ := translate_eq_ok_iff.mp hp
    obtain ⟨hop, hlist, t, ht, hholds⟩ := h.aims hnull
    exact ⟨_, t, hF, ht, hop, hlist, (hholds record).symm⟩
  · rintro ⟨F, t, hF, ht, hop, hlist, rfl⟩
    obtain ⟨p, hp⟩ := ht.exists_compares hnull hop hlist
    obtain ⟨-, -, t', ht', hholds⟩ := hp.aims hnull
    obtain rfl := ht.unique ht'
    exact ⟨p, translate_eq_ok_iff.mpr (.comparison hF hp), hholds record⟩

/-- **When a comparison matches a record**, once its operand is known to stand for a target: the
operator is one of the field's type, takes what it is given, and holds. -/
theorem Aims.matches_iff (ht : Aims s F c.value t) (hF : s.resolve c.field.segments = .ok F)
    (hnull : c.value.isNull = false) :
    c.Matches s record ↔ (c.op ∈ F.type.operators ∧ c.op.takesList = c.value.isList)
      ∧ comparisonHolds record ⟨F.path, F.type⟩ c.op t = true := by
  refine (answers_iff (b := true) hnull).trans ?_
  constructor
  · rintro ⟨F', t', hF', ht', hop, hlist, hholds⟩
    obtain rfl := Except.ok.inj (hF.symm.trans hF')
    obtain rfl := ht.unique ht'
    exact ⟨⟨hop, hlist⟩, hholds⟩
  · rintro ⟨⟨hop, hlist⟩, hholds⟩
    exact ⟨F, t, hF, ht, hop, hlist, hholds⟩

/-- **When a comparison has a predicate**, once its operand is known to stand for a target. -/
theorem Aims.translates_iff (ht : Aims s F c.value t) (hF : s.resolve c.field.segments = .ok F)
    (hnull : c.value.isNull = false) :
    c.Translates s ↔ c.op ∈ F.type.operators ∧ c.op.takesList = c.value.isList := by
  constructor
  · rintro ⟨p, hp⟩
    obtain - | - | - | ⟨hF', h⟩ := translate_eq_ok_iff.mp hp
    obtain rfl := Except.ok.inj (hF.symm.trans hF')
    obtain ⟨hop, hlist, -⟩ := h.aims hnull
    exact ⟨hop, hlist⟩
  · rintro ⟨hop, hlist⟩
    obtain ⟨p, hp⟩ := ht.exists_compares hnull hop hlist
    exact ⟨p, translate_eq_ok_iff.mpr (.comparison hF hp)⟩

/-- **When a comparison with a literal matches a record.** -/
theorem matches_literal_iff {l : Literal} {x : Scalar} (hvalue : c.value = .literal l)
    (hF : s.resolve c.field.segments = .ok F) (hx : Coerces F l.value x)
    (hop : op ∈ F.type.operators) (hlist : op.takesList = false) :
    (c.withOp op).Matches s record
      ↔ comparisonHolds record ⟨F.path, F.type⟩ op (.scalar x) = true := by
  have hnull : Operand.isNull (.literal l) = false :=
    decide_eq_false fun h => not_coerces_null (h ▸ hx)
  have haims : Aims s F c.value (.scalar x) := hvalue ▸ .literal hx
  rw [Aims.matches_iff (c := c.withOp op) haims hF (hvalue ▸ hnull)]
  exact and_iff_right ⟨hop, hvalue ▸ hlist⟩

/-- **What a comparison with null says on a record**: whether some value is null, or there is
none. -/
theorem answers_null_iff (hnull : c.value.isNull = true) :
    c.Answers s record b ↔ ∃ F, s.resolve c.field.segments = .ok F
      ∧ (c.op = .equal ∧ (Predicate.isNull ⟨F.path, F.type⟩ false).holds record = b
        ∨ c.op = .notEqual ∧ (Predicate.isNull ⟨F.path, F.type⟩ true).holds record = b) := by
  obtain ⟨offset, hvalue⟩ : ∃ offset, c.value = .literal ⟨.null, offset⟩ := by
    cases hv : c.value with
    | literal l =>
      have hl : l.value = .null := by simpa [hv, Operand.isNull] using hnull
      exact ⟨l.offset, by rw [← hl]⟩
    | list _ _ => simp [hv, Operand.isNull] at hnull
    | name _ => simp [hv, Operand.isNull] at hnull
  constructor
  · rintro ⟨p, hp, rfl⟩
    obtain - | - | - | ⟨hF, h⟩ := translate_eq_ok_iff.mp hp
    rw [hvalue] at h
    refine ⟨_, hF, ?_⟩
    cases h with
    | isNull hop => exact Or.inl ⟨hop, rfl⟩
    | isNotNull hop => exact Or.inr ⟨hop, rfl⟩
    | literal hne _ _ _ => exact absurd rfl hne
  · rintro ⟨F, hF, ⟨hop, rfl⟩ | ⟨hop, rfl⟩⟩
    · exact ⟨_, translate_eq_ok_iff.mpr (.comparison hF (hvalue ▸ .isNull hop)), rfl⟩
    · exact ⟨_, translate_eq_ok_iff.mpr (.comparison hF (hvalue ▸ .isNotNull hop)), rfl⟩

/-! ## Expansions -/

/-- **A negated operator says the opposite.** -/
theorem answers_negation_iff {neg pos : Operator} (h : (neg, pos) ∈ Operator.negations) :
    (c.withOp neg).Answers s record b ↔ (c.withOp pos).Answers s record (!b) := by
  have htakes : ∀ x ∈ Operator.negations, x.1.takesList = x.2.takesList := by decide
  cases hnull : c.value.isNull with
  | true =>
    -- the null test is negated by a flag
    have hflag : ∀ F : Field, (Predicate.isNull ⟨F.path, F.type⟩ true).holds record
        = !(Predicate.isNull ⟨F.path, F.type⟩ false).holds record := by
      intro F
      simp [Predicate.holds]
    rw [answers_null_iff (c := c.withOp neg) hnull, answers_null_iff (c := c.withOp pos) hnull]
    simp only [Operator.negations, List.mem_cons, List.not_mem_nil, or_false, Prod.mk.injEq] at h
    obtain ⟨rfl, rfl⟩ | ⟨rfl, rfl⟩ | ⟨rfl, rfl⟩ := h <;> simp [Comparison.withOp, hflag]
  | false =>
    rw [answers_iff (c := c.withOp neg) hnull, answers_iff (c := c.withOp pos) hnull]
    show (∃ F t, _ ∧ _ ∧ neg ∈ _ ∧ neg.takesList = _ ∧ comparisonHolds _ _ neg t = b)
      ↔ ∃ F t, _ ∧ _ ∧ pos ∈ _ ∧ pos.takesList = _ ∧ comparisonHolds _ _ pos t = !b
    simp only [mem_operators_of_negation h, htakes _ h, comparisonHolds_of_negation h]
    simp only [Bool.not_eq_eq_eq_not]
    rfl

/-- **A wide operator says that the strict one or equality does.** -/
theorem answers_widening_iff {wide strict : Operator} (h : (wide, strict) ∈ Operator.widenings) :
    (c.withOp wide).Answers s record b ↔ ∃ b₁ b₂, (c.withOp strict).Answers s record b₁
      ∧ (c.withOp .equal).Answers s record b₂ ∧ b = (b₁ || b₂) := by
  have htakes : ∀ x ∈ Operator.widenings, x.1.takesList = false ∧ x.2.takesList = false
      ∧ ∀ op ∈ [Operator.equal, .notEqual], x.1 ≠ op ∧ x.2 ≠ op := by decide
  obtain ⟨hwide, hstrict, hne⟩ := htakes _ h
  cases hnull : c.value.isNull with
  | true =>
    rw [answers_null_iff (c := c.withOp wide) hnull]
    simp only [answers_null_iff (c := c.withOp strict) hnull]
    simp [Comparison.withOp, hne]
  | false =>
    have hwhole : ∀ op b, (c.withOp op).Answers s record b
        ↔ ∃ F t, s.resolve c.field.segments = .ok F
          ∧ Aims s F c.value t ∧ op ∈ F.type.operators ∧ op.takesList = c.value.isList
          ∧ comparisonHolds record ⟨F.path, F.type⟩ op t = b :=
      fun op b => answers_iff (c := c.withOp op) hnull
    simp only [hwhole]
    constructor
    · rintro ⟨F, t, hF, ht, hop, hlist, rfl⟩
      obtain ⟨hstrictOp, hequalOp⟩ := (mem_operators_of_widening h F.type).mp hop
      have hnot : false = c.value.isList := hwide.symm.trans hlist
      exact ⟨_, _, ⟨F, t, hF, ht, hstrictOp, hstrict.trans hnot, rfl⟩,
        ⟨F, t, hF, ht, hequalOp, hnot, rfl⟩, comparisonHolds_of_widening h record _ t⟩
    · rintro ⟨_, _, ⟨F, t, hF, ht, hop, hlist, rfl⟩, ⟨F', t', hF', ht', hop', -, rfl⟩, rfl⟩
      obtain rfl := Except.ok.inj (hF.symm.trans hF')
      obtain rfl := ht.unique ht'
      exact ⟨F, t, hF, ht, (mem_operators_of_widening h F.type).mpr ⟨hop, hop'⟩,
        hwide.trans (hstrict.symm.trans hlist), comparisonHolds_of_widening h record _ t⟩

/-- What some element of a list has, some element that goes with it in another list has. -/
theorem exists_mem_iff_of_forall₂ {α β : Type} {R : α → β → Prop} {P : α → Prop} {Q : β → Prop}
    {as : List α} {bs : List β} (h : List.Forall₂ R as bs) (hR : ∀ a b, R a b → (P a ↔ Q b)) :
    (∃ a ∈ as, P a) ↔ ∃ b ∈ bs, Q b := by
  induction h with
  | nil => simp
  | cons hab _ ih => simp only [List.exists_mem_cons_iff, hR _ _ hab, ih]

/-- **A list says that equality with one of its items does.** -/
theorem answers_isIn {items : List Literal} {offset : Nat} (hvalue : c.value = .list items offset)
    (h : (c.withOp .isIn).Answers s record b) :
    (∀ l ∈ items, ∃ b, (c.withItem l).Answers s record b)
      ∧ (b = true ↔ ∃ l ∈ items, (c.withItem l).Answers s record true) := by
  have hnull : (c.withOp .isIn).value.isNull = false := by
    show c.value.isNull = false
    rw [hvalue]
    rfl
  obtain ⟨F, t, hF, ht, hop, -, rfl⟩ := (answers_iff hnull).mp h
  have ht : Aims s F c.value t := ht
  rw [hvalue] at ht
  cases ht with
  | @list _ _ vs hvs =>
    have hitem : ∀ {l v b}, Coerces F l.value v → ((c.withItem l).Answers s record b
        ↔ comparisonHolds record ⟨F.path, F.type⟩ .equal (.scalar v) = b) := by
      intro l v b hv
      have hlnull : (c.withItem l).value.isNull = false :=
        Bool.eq_false_iff.mpr fun h => not_coerces_null (of_decide_eq_true h ▸ hv)
      rw [answers_iff hlnull]
      constructor
      · rintro ⟨F', t', hF', ht', -, -, rfl⟩
        obtain rfl := Except.ok.inj (hF.symm.trans hF')
        rw [ht'.unique (.literal hv)]
        rfl
      · intro hb
        exact ⟨F, .scalar v, hF, .literal hv, equal_mem_operators hop, rfl, hb⟩
    refine ⟨fun l hl => ?_, ?_⟩
    · obtain ⟨v, hv⟩ := exists_values_iff.mp ⟨vs, hvs⟩ l hl
      exact ⟨_, (hitem hv).mpr rfl⟩
    · rw [exists_mem_iff_of_forall₂ hvs fun l v hv => hitem hv]
      exact comparisonHolds_isIn_iff

/-- A negated comparison has a predicate when the positive one has, and then one of the two
matches. -/
theorem matches_negation_iff {neg pos : Operator} (h : (neg, pos) ∈ Operator.negations) :
    ((c.withOp neg).Translates s ↔ (c.withOp pos).Translates s)
      ∧ ((c.withOp neg).Translates s →
        ((c.withOp neg).Matches s record ↔ ¬ (c.withOp pos).Matches s record)) := by
  have hanswers : ∀ b, (c.withOp neg).Answers s record b ↔ (c.withOp pos).Answers s record (!b) :=
    fun b => answers_negation_iff h
  constructor
  · rw [translates_iff_answers record, translates_iff_answers record]
    constructor
    · rintro ⟨b, hb⟩
      exact ⟨!b, (hanswers b).mp hb⟩
    · rintro ⟨b, hb⟩
      exact ⟨!b, (hanswers !b).mpr (by rwa [Bool.not_not])⟩
  · intro htranslates
    obtain ⟨b, hb⟩ := (translates_iff_answers record).mp htranslates
    rw [hb.matches_iff, ((hanswers b).mp hb).matches_iff]
    simp

/-- A wide comparison has a predicate when the strict one and equality have, and then it matches
when one of these does. -/
theorem matches_widening_iff {wide strict : Operator} (h : (wide, strict) ∈ Operator.widenings) :
    ((c.withOp wide).Translates s ↔ (c.withOp strict).Translates s ∧ (c.withOp .equal).Translates s)
      ∧ ((c.withOp wide).Translates s → ((c.withOp wide).Matches s record
        ↔ (c.withOp strict).Matches s record ∨ (c.withOp .equal).Matches s record)) := by
  have hanswers : ∀ b, (c.withOp wide).Answers s record b
      ↔ ∃ b₁ b₂, (c.withOp strict).Answers s record b₁
        ∧ (c.withOp .equal).Answers s record b₂ ∧ b = (b₁ || b₂) :=
    fun b => answers_widening_iff h
  constructor
  · rw [translates_iff_answers record, translates_iff_answers record, translates_iff_answers record]
    constructor
    · rintro ⟨b, hb⟩
      obtain ⟨b₁, b₂, h₁, h₂, -⟩ := (hanswers b).mp hb
      exact ⟨⟨b₁, h₁⟩, b₂, h₂⟩
    · rintro ⟨⟨b₁, h₁⟩, b₂, h₂⟩
      exact ⟨_, (hanswers _).mpr ⟨b₁, b₂, h₁, h₂, rfl⟩⟩
  · intro htranslates
    obtain ⟨b, hb⟩ := (translates_iff_answers record).mp htranslates
    obtain ⟨b₁, b₂, h₁, h₂, rfl⟩ := (hanswers b).mp hb
    rw [hb.matches_iff, h₁.matches_iff, h₂.matches_iff, Bool.or_eq_true]

/-- A comparison with a list matches when equality with one of the items does. -/
theorem matches_isIn_iff {items : List Literal} {offset : Nat}
    (hvalue : c.value = .list items offset) (h : (c.withOp .isIn).Translates s) :
    (∀ l ∈ items, (c.withItem l).Translates s)
      ∧ ((c.withOp .isIn).Matches s record ↔ ∃ l ∈ items, (c.withItem l).Matches s record) := by
  obtain ⟨b, hb⟩ := (translates_iff_answers record).mp h
  obtain ⟨hitems, hiff⟩ := answers_isIn hvalue hb
  exact ⟨fun l hl => (translates_iff_answers record).mpr (hitems l hl), hb.matches_iff.trans hiff⟩

/-- No positive comparison but with null matches null values. -/
theorem not_matches_of_isNull (hF : s.resolve c.field.segments = .ok F)
    (hvalues : ∀ v ∈ valuesAt record F.path, v.isNull = true) (hop : c.op ∈ Operator.positives)
    (hnull : c.value.isNull = false) : ¬ c.Matches s record := by
  intro hmatches
  obtain ⟨F', t, hF', -, -, -, hholds⟩ := (answers_iff hnull).mp hmatches
  obtain rfl := Except.ok.inj (hF.symm.trans hF')
  exact absurd (hholds.symm.trans (comparisonHolds_of_isNull hop hvalues t)) (by decide)

/-- **Derived operators are what they expand to** on every record: a negated operator, an operator
that includes equality, and a list. Where every value of the field is null or missing, no operator
matches that is not negated, whatever the field is compared with; the test for null is apart. -/
theorem comparison_expands (s : Schema) (c : Comparison) (record : Json) :
    (∀ neg pos, (neg, pos) ∈ Operator.negations →
        ((c.withOp neg).Translates s ↔ (c.withOp pos).Translates s)
          ∧ ((c.withOp neg).Translates s →
            ((c.withOp neg).Matches s record ↔ ¬ (c.withOp pos).Matches s record)))
      ∧ (∀ wide strict, (wide, strict) ∈ Operator.widenings →
        ((c.withOp wide).Translates s
            ↔ (c.withOp strict).Translates s ∧ (c.withOp .equal).Translates s)
          ∧ ((c.withOp wide).Translates s → ((c.withOp wide).Matches s record
            ↔ (c.withOp strict).Matches s record ∨ (c.withOp .equal).Matches s record)))
      ∧ (∀ items offset, c.value = .list items offset → (c.withOp .isIn).Translates s →
        (∀ l ∈ items, (c.withItem l).Translates s)
        ∧ ((c.withOp .isIn).Matches s record ↔ ∃ l ∈ items, (c.withItem l).Matches s record))
      ∧ ∀ F op, s.resolve c.field.segments = .ok F →
        (∀ v ∈ valuesAt record F.path, v.isNull = true) →
        op ∈ Operator.positives → c.value.isNull = false → ¬ (c.withOp op).Matches s record := by
  refine ⟨fun neg pos h => ?_, fun wide strict h => ?_, fun items offset hvalue hin => ?_, ?_⟩
  · exact matches_negation_iff h
  · exact matches_widening_iff h
  · exact matches_isIn_iff hvalue hin
  · intro F op hF hvalues hop hnull
    exact not_matches_of_isNull (c := c.withOp op) hF hvalues hop hnull

/-- A post has the numbers 1 and 5, a null among them, and no notes. So `n != 1` does not match,
though 5 is another number; `n >= 5` and `n in [5, 7]` match, since `n = 5` does; and
`notes.m <= n` does not. -/
theorem comparison_expands_numbers :
    let registry :=
      (Registry.empty.withModel "post" ⟨[.plain "n" .number, .relation "notes" "note"]⟩).withModel
      "note" ⟨[.plain "m" .number]⟩
    let s : Schema := ⟨registry, "post", .standard, by decide +kernel, by decide +kernel⟩
    let record : Json :=
      .object [("n", .array [.number (.int 1), .number (.int 5), .null]), ("notes", .array [])]
    let n (v : Operand) : Comparison := ⟨⟨["n"], 0⟩, .equal, v, 0⟩
    let one := n (.literal ⟨.int 1, 0⟩)
    let five := n (.literal ⟨.int 5, 0⟩)
    let list := n (.list [⟨.int 5, 0⟩, ⟨.int 7, 0⟩] 0)
    let note : Comparison := ⟨⟨["notes", "m"], 0⟩, .equal, .name ⟨["n"], 0⟩, 0⟩
    (one.withOp .equal).Matches s record ∧ ¬ (one.withOp .notEqual).Matches s record
      ∧ ¬ (five.withOp .greater).Matches s record ∧ (five.withOp .greaterEqual).Matches s record
      ∧ (list.withOp .isIn).Matches s record ∧ ¬ (note.withOp .lessEqual).Matches s record := by
  intro registry s record n one five list note
  obtain ⟨hnegated, -⟩ := comparison_expands s one record
  obtain ⟨-, hwide, -⟩ := comparison_expands s five record
  obtain ⟨-, -, hlist, -⟩ := comparison_expands s list record
  obtain ⟨-, -, -, hnull⟩ := comparison_expands s note record
  have hone : (one.withOp .equal).Matches s record := by decide +kernel
  have hfive : (five.withOp .equal).Matches s record := by decide +kernel
  have hnotEqual := (hnegated .notEqual .equal (by decide)).2 (by decide +kernel)
  have hgreaterEqual := (hwide .greaterEqual .greater (by decide)).2 (by decide +kernel)
  have hin := (hlist _ _ rfl (by decide +kernel)).2
  refine ⟨hone, fun h => hnotEqual.mp h hone,
    by decide +kernel, hgreaterEqual.mpr (Or.inr hfive), ?_, ?_⟩
  · exact hin.mpr ⟨⟨.int 5, 0⟩, List.mem_cons_self, hfive⟩
  · let m : Field := ⟨["notes", "m"], "note", .plain "m" .number⟩
    exact hnull m .lessEqual (by decide +kernel) (by decide +kernel) (by decide) rfl

end RecordQuery
