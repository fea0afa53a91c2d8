import Mathlib.Data.String.Basic
import RecordQuery.Proofs.Predicate.Expansion

/-!
# Comparing a field with another field

A comparison of two fields does not treat them alike: the values of the field on the right are
brought to its type, and each value of the field on the left is then read as what it meets. It is
symmetric all the same (`compare_fields_symmetric`). What carries this is that two values stand to
each other in some order, if in any (`compareAs?`), and that the order is turned round when the
values are (`compareAs?_swap`).

In most types both sides are read by one reader, so this is a matter of the order of what
is read. Numbers have two readers: two integers of 64 bits are compared exactly and any
other pair as binary64 numbers, so it has to be seen that one integer is not enough for the
exact order on either side.

A field that holds one value is, to what it is compared with, the literal that this value is
written as (`comparison_with_held_value`): reading the literal in the type of the field gives what
reading the value gives.
-/

namespace RecordQuery

/-! ## Operators and orders -/

namespace Operator

/-- The operators that ask how a value stands to an operand. -/
def orders : List Operator := [.equal, .less, .lessEqual, .greater, .greaterEqual]

/-- **Whether an operator accepts an order** of the value and the operand. -/
def accepts : Operator → Ordering → Bool
  | .equal, o | .isIn, o => o.isEq
  | .notEqual, o | .notIn, o => o.isNe
  | .less, o => o.isLT
  | .lessEqual, o => o.isLE
  | .greater, o => o.isGT
  | .greaterEqual, o => o.isGE
  | .contains, _ | .notContains, _ => false

/-- **The operators that are turned round with the two sides**, and what they become. -/
def converses : List (Operator × Operator) :=
  [(.equal, .equal), (.notEqual, .notEqual), (.less, .greater), (.greater, .less),
    (.lessEqual, .greaterEqual), (.greaterEqual, .lessEqual)]

theorem positive?_of_mem_orders {op : Operator} (h : op ∈ orders) : op.positive? = none := by
  have htable : ∀ op ∈ orders, op.positive? = none := by decide
  exact htable _ h

/-- Turned round, but for `!=`, an operator accepts the order that is turned round. -/
theorem accepts_swap {op op' : Operator} (h : (op, op') ∈ converses) (hop : op ∈ orders)
    (o : Ordering) :
    op' ∈ orders ∧ op'.accepts o.swap = op.accepts o := by
  have htable : ∀ x ∈ converses, x.1 ∈ orders → x.2 ∈ orders := by decide
  refine ⟨htable _ h hop, ?_⟩
  simp only [converses, List.mem_cons, List.not_mem_nil, or_false, Prod.mk.injEq] at h
  rcases h with ⟨rfl, rfl⟩ | ⟨rfl, rfl⟩ | ⟨rfl, rfl⟩ | ⟨rfl, rfl⟩ | ⟨rfl, rfl⟩ | ⟨rfl, rfl⟩
    <;> cases o <;> rfl

end Operator

/-- **A value stands to an operand as its order is accepted.** -/
theorem stands_eq_accepts {op : Operator} (hop : op ∈ Operator.orders) (v : Json)
    (operand : Scalar) :
    stands v op operand = (compareValue? v operand).any op.accepts := by
  have hsome : ∀ o o' : Ordering, decide (some o = some o') = decide (o = o') := fun o o' => by simp
  simp only [Operator.orders, List.mem_cons, List.not_mem_nil, or_false] at hop
  rcases hop with rfl | rfl | rfl | rfl | rfl <;> cases h : compareValue? v operand with
  | none => simp [stands, h]
  | some o => cases o <;> simp [stands, h, Operator.accepts]

/-! ## The order of values is turned round with them -/

theorem compareTexts_swap (a b : String) : (compareTexts a b).swap = compareTexts b a := by
  unfold compareTexts
  rcases lt_trichotomy a b with h | rfl | h
  · rw [if_pos h, if_neg (lt_asymm h), if_neg h.ne']
    rfl
  · rw [if_neg (lt_irrefl a), if_pos rfl]
    rfl
  · rw [if_neg (lt_asymm h), if_neg h.ne', if_pos h]
    rfl

theorem compareBools_swap (a b : Bool) : (compareBools a b).swap = compareBools b a :=
  Nat.compare_swap _ _

theorem Date.compare_swap (a b : Date) : (a.compare b).swap = b.compare a := by
  simp only [Date.compare, Ordering.swap_then, Int.compare_swap, Nat.compare_swap]

theorem DateTime.compare_swap (a b : DateTime) : (a.compare b).swap = b.compare a := by
  simp only [DateTime.compare, Ordering.swap_then, Date.compare_swap, Nat.compare_swap]

/-- The order of two numbers is turned round with them; there is none if one of them is not a
number. -/
theorem Binary64.compare?_swap (x y : Binary64) :
    (x.compare? y).map Ordering.swap = y.compare? x := by
  unfold Binary64.compare?
  cases x.key? <;> cases y.key? <;> simp [Int.compare_swap]

/-- **How a value stands to another one** that is brought to a type. -/
def compareAs? (t : FieldType) (v w : Json) : Option Ordering :=
  (toScalar? t w).bind (compareValue? v)

/-- Where both sides are read by one reader, the order is turned round when that of what is read
is. -/
theorem compareAs?_swap_of_reader {α : Type} {t : FieldType} {read : Json → Option α}
    {wrap : α → Scalar} {cmp : α → α → Ordering} (hread : ∀ w, toScalar? t w = (read w).map wrap)
    (hcompare : ∀ v a, compareValue? v (wrap a) = (read v).map (cmp · a))
    (hcmp : ∀ a b, (cmp a b).swap = cmp b a) (v w : Json) :
    (compareAs? t v w).map Ordering.swap = compareAs? t w v := by
  unfold compareAs?
  rw [hread, hread]
  cases hv : read v <;> cases hw : read w <;> simp [hcompare, hv, hw, hcmp]

/-- An integer of 64 bits is a number. -/
theorem asNumber?_of_asInt64? {v : Json} {n : Int} (h : v.asInt64? = some n) :
    v.asNumber? = some (.ofInt n) := by
  unfold Json.asInt64? at h
  split at h
  · split at h
    · obtain rfl := Option.some.inj h
      rfl
    · exact nomatch h
  · exact nomatch h

/-- **Two integers of 64 bits are compared exactly.** -/
theorem compareAs?_number_of_ints {v w : Json} {m n : Int} (hv : v.asInt64? = some m)
    (hw : w.asInt64? = some n) :
    compareAs? .number v w = some (compare m n) := by
  simp [compareAs?, toScalar?, Json.asNumberScalar?, compareValue?, hv, hw]

/-- **All other numbers are compared as binary64 ones**, also an integer with what is none. -/
theorem compareAs?_number_of_not_ints {v w : Json} (h : v.asInt64? = none ∨ w.asInt64? = none) :
    compareAs? .number v w = w.asNumber?.bind fun y => v.asNumber?.bind (·.compare? y) := by
  cases hw : w.asInt64? with
  | none =>
    cases hy : w.asNumber?
      <;> simp [compareAs?, toScalar?, Json.asNumberScalar?, compareValue?, hw, hy]
  | some n =>
    have hv : v.asInt64? = none := h.resolve_right (by simp [hw])
    simp [compareAs?, toScalar?, Json.asNumberScalar?, compareValue?, hv, hw,
      asNumber?_of_asInt64? hw]

theorem compareAs?_number_swap (v w : Json) :
    (compareAs? .number v w).map Ordering.swap = compareAs? .number w v := by
  by_cases h : v.asInt64? = none ∨ w.asInt64? = none
  · rw [compareAs?_number_of_not_ints h, compareAs?_number_of_not_ints h.symm]
    cases v.asNumber? <;> cases w.asNumber? <;> simp [Binary64.compare?_swap]
  · obtain ⟨hv, hw⟩ := not_or.mp h
    obtain ⟨m, hm⟩ := Option.ne_none_iff_exists'.mp hv
    obtain ⟨n, hn⟩ := Option.ne_none_iff_exists'.mp hw
    rw [compareAs?_number_of_ints hm hn, compareAs?_number_of_ints hn hm, Option.map_some,
      Int.compare_swap]

/-- **The order of two values is turned round with them**, in every type. -/
theorem compareAs?_swap (t : FieldType) (v w : Json) :
    (compareAs? t v w).map Ordering.swap = compareAs? t w v := by
  cases t with
  | text | choice =>
    exact compareAs?_swap_of_reader (fun _ => rfl) (fun _ _ => rfl) compareTexts_swap v w
  | number => exact compareAs?_number_swap v w
  | boolean => exact compareAs?_swap_of_reader (fun _ => rfl) (fun _ _ => rfl) compareBools_swap v w
  | date => exact compareAs?_swap_of_reader (fun _ => rfl) (fun _ _ => rfl) Date.compare_swap v w
  | datetime =>
    exact compareAs?_swap_of_reader (fun _ => rfl) (fun _ _ => rfl) DateTime.compare_swap v w
  | relation => rfl

theorem FieldType.comparableWith_comm (t u : FieldType) :
    t.comparableWith u = u.comparableWith t := by
  cases t <;> cases u <;> rfl

/-- Types that may be compared bring values to one form. -/
theorem compareAs?_eq_of_comparableWith {t u : FieldType} (h : t.comparableWith u = true) :
    compareAs? t = compareAs? u := by
  obtain rfl | ⟨rfl, rfl⟩ | ⟨rfl, rfl⟩ := comparableWith_eq_true_iff.mp h <;> rfl

/-! ## Two fields -/

variable {f g : FieldRef} {record : Json}

/-- **A comparison of two fields** matches when one of the values of each stand in an
order that is accepted. -/
theorem comparisonHolds_field_iff {op : Operator} (hop : op ∈ Operator.orders) :
    comparisonHolds record f op (.field g) = true
      ↔ ∃ v ∈ valuesAt record f.path, ∃ w ∈ valuesAt record g.path,
      ∃ o, compareAs? g.type v w = some o ∧ op.accepts o = true := by
  have hmem : ∀ v,
      (((valuesAt record g.path).filterMap (toScalar? g.type)).any fun x => stands v op x) = true
        ↔ ∃ w ∈ valuesAt record g.path, ∃ o,
          compareAs? g.type v w = some o ∧ op.accepts o = true := by
    intro v
    simp only [List.any_eq_true, List.mem_filterMap, stands_eq_accepts hop, Option.any_eq_true,
      compareAs?, Option.bind_eq_some_iff]
    constructor
    · rintro ⟨x, ⟨w, hw, hx⟩, o, ho, haccepts⟩
      exact ⟨w, hw, o, ⟨x, hx, ho⟩, haccepts⟩
    · rintro ⟨w, hw, o, ⟨x, hx, ho⟩, haccepts⟩
      exact ⟨x, ⟨w, hw, hx⟩, o, ho, haccepts⟩
  unfold comparisonHolds
  simp only [Operator.positive?_of_mem_orders hop, anyStands,
    List.any_eq_true (p := fun v => List.any _ _), hmem]

/-- One direction of the symmetry, for the operators that are not negated. -/
theorem comparisonHolds_converse {op op' : Operator} (h : (op, op') ∈ Operator.converses)
    (hop : op ∈ Operator.orders) (ht : f.type.comparableWith g.type = true)
    (hholds : comparisonHolds record f op (.field g) = true) :
    comparisonHolds record g op' (.field f) = true := by
  obtain ⟨v, hv, w, hw, o, ho, haccepts⟩ := (comparisonHolds_field_iff hop).mp hholds
  obtain ⟨hop', hswap⟩ := Operator.accepts_swap h hop o
  refine (comparisonHolds_field_iff hop').mpr ⟨w, hw, v, hv, o.swap, ?_, hswap.trans haccepts⟩
  rw [compareAs?_eq_of_comparableWith ht, ← compareAs?_swap, ho, Option.map_some]

/-- **A comparison of two fields is symmetric.** On every record it says what the comparison says
that is turned round, whatever the values of the two fields are. -/
theorem compare_fields_symmetric (ht : f.type.comparableWith g.type = true) (record : Json) :
    ∀ op op', (op, op') ∈ Operator.converses →
      (Predicate.compare f op (.field g)).holds record
        = (Predicate.compare g op' (.field f)).holds record := by
  have hreverse : ∀ x ∈ Operator.converses, (x.2, x.1) ∈ Operator.converses := by decide
  have ht' : g.type.comparableWith f.type = true := by rwa [FieldType.comparableWith_comm]
  have horders : ∀ op op', (op, op') ∈ Operator.converses → op ∈ Operator.orders →
      comparisonHolds record f op (.field g) = comparisonHolds record g op' (.field f) := by
    intro op op' h hop
    have hop' : op' ∈ Operator.orders := (Operator.accepts_swap h hop .eq).1
    exact Bool.eq_iff_iff.mpr
      ⟨comparisonHolds_converse h hop ht, comparisonHolds_converse (hreverse _ h) hop' ht'⟩
  intro op op' h
  show comparisonHolds record f op (.field g) = comparisonHolds record g op' (.field f)
  have hsplit : ∀ x ∈ Operator.converses, x.1 ∈ Operator.orders ∨ x = (.notEqual, .notEqual) := by
    decide
  rcases hsplit _ h with hop | hne
  · exact horders op op' h hop
  · obtain ⟨rfl, rfl⟩ := Prod.mk.inj hne
    have hnegation : (Operator.notEqual, Operator.equal) ∈ Operator.negations := by decide
    rw [comparisonHolds_of_negation hnegation, comparisonHolds_of_negation hnegation,
      horders .equal .equal (by decide) (by decide)]

/-- Here `a` holds a number as a text and a null, and `b` a number that is the one of `a` but for
what a binary64 number can tell: `a <= b` matches, and so does `b >= a`. -/
theorem compare_fields_symmetric_numbers :
    let record : Json := .object [("a", .array [.string "9007199254740993", .null]),
      ("b", .array [.number (.int 9007199254740992), .object []])]
    let a : FieldRef := ⟨["a"], .number⟩
    let b : FieldRef := ⟨["b"], .number⟩
    a.type.comparableWith b.type = true
      ∧ (Predicate.compare a .lessEqual (.field b)).holds record = true
      ∧ (Predicate.compare b .greaterEqual (.field a)).holds record = true := by
  intro record a b
  have ht : a.type.comparableWith b.type = true := by decide
  have hle : (Predicate.compare a .lessEqual (.field b)).holds record = true := by decide +kernel
  have hge := compare_fields_symmetric ht record .lessEqual .greaterEqual (by decide)
  exact ⟨ht, hle, hge.symm.trans hle⟩

/-! ## A literal and a field that holds it -/

/-- **The literal that a value is written as** in a type. -/
inductive Json.WrittenAs : FieldType → Json → LiteralValue → Prop
  | text {t : FieldType} {s : String} (ht : t = .text ∨ t = .date ∨ t = .datetime) :
      WrittenAs t (.string s) (.string s)
  | bool {b : Bool} : WrittenAs .boolean (.bool b) (.bool b)
  | int {n : Int} (hn : fitsInt64 n = true) : WrittenAs .number (.number (.int n)) (.int n)

theorem Json.WrittenAs.ne_null {t : FieldType} {v : Json} {l : LiteralValue}
    (h : v.WrittenAs t l) : l ≠ .null := by
  cases h <;> simp

/-- **Reading the literal gives what reading the value gives.** -/
theorem Json.WrittenAs.toScalar?_eq {F : Field} {t : FieldType} {v : Json} {l : LiteralValue}
    {x : Scalar} (h : v.WrittenAs t l) (hF : F.type = t) (hx : Coerces F l x) :
    toScalar? t v = some x := by
  cases h with
  | text ht =>
    cases hx with
    | number hnumber _ => simp [← hF, hnumber] at ht
    | text htext =>
      rw [← hF, htext]
      rfl
    | choice hchoice _ => simp [← hF, hchoice] at ht
    | date hdate hd =>
      rw [← hF, hdate]
      simp [toScalar?, Json.asDate?, hd]
    | datetime hdatetime hd =>
      rw [← hF, hdatetime]
      simp [toScalar?, Json.asDateTime?, hd]
  | bool =>
    cases hx with
    | bool _ => rfl
  | int hn =>
    cases hx with
    | int _ => simp [toScalar?, Json.asNumberScalar?, Json.asInt64?, hn]
    | digits hchoice _ => exact nomatch hF.symm.trans hchoice

/-- A field that holds one value is compared with as that value. -/
theorem comparisonHolds_field_of_single {op : Operator} {w : Json} {x : Scalar}
    (hw : valuesAt record g.path = [w]) (hx : toScalar? g.type w = some x) :
    comparisonHolds record f op (.field g) = comparisonHolds record f op (.scalar x) := by
  have hany : ∀ vs op, anyStands record vs op (.field g) = anyStands record vs op (.scalar x) := by
    intro vs op
    simp [anyStands, hw, hx]
  unfold comparisonHolds
  simp only [hany]

/-- The comparison of the same field, by the same operator, with another operand. -/
def Comparison.withValue (c : Comparison) (v : Operand) : Comparison := { c with value := v }

variable {s : Schema} {c : Comparison}

/-- **To be compared with a field that holds one value is to be compared with that value.** If a
field may be compared with the literal, it may be compared with a field of its type that holds it,
and the same records match, whatever the values of the first field are. -/
theorem comparison_with_held_value {b : NamePath} {A B : Field} {record v : Json} {l : Literal}
    (hA : s.resolve c.field.segments = .ok A) (hB : s.resolve b.segments = .ok B)
    (htype : A.type = B.type) (hv : valuesAt record B.path = [v])
    (hl : v.WrittenAs A.type l.value) (htranslates : (c.withValue (.literal l)).Translates s) :
    (c.withValue (.name b)).Translates s
      ∧ ((c.withValue (.literal l)).Matches s record
        ↔ (c.withValue (.name b)).Matches s record) := by
  have hnull : (c.withValue (.literal l)).value.isNull = false := decide_eq_false hl.ne_null
  obtain ⟨answer, hanswer⟩ := (translates_iff_answers record).mp htranslates
  obtain ⟨A', t, hA', ht, -⟩ := (answers_iff hnull).mp hanswer
  obtain rfl := Except.ok.inj (hA.symm.trans hA')
  obtain ⟨hop, hlist⟩ := (ht.translates_iff hA hnull).mp htranslates
  have hname : Aims s A (.name b) (.field ⟨B.path, B.type⟩) := .name hB (Or.inl htype)
  refine ⟨(Aims.translates_iff (c := c.withValue (.name b)) hname hA rfl).mpr ⟨hop, hlist⟩, ?_⟩
  rw [Aims.matches_iff ht hA hnull, Aims.matches_iff (c := c.withValue (.name b)) hname hA rfl]
  cases ht with
  | literal hx =>
    have hread : toScalar? B.type v = some _ := htype ▸ hl.toScalar?_eq rfl hx
    rw [comparisonHolds_field_of_single hv hread]
    rfl

/-- A task is due at a time of a day, and done on that day: so it was due when it was done,
whether the day is written into the query or held by the task. -/
theorem comparison_with_held_value_day :
    let registry := Registry.empty.withModel "task" ⟨[.plain "due" .date, .plain "done" .date]⟩
    let s : Schema := ⟨registry, "task", .standard, by decide +kernel, by decide +kernel⟩
    let record : Json := .object [("due", .array [.string "2024-01-31 10:00", .string "soon"]),
      ("done", .string " 2024-1-31")]
    let c : Comparison := ⟨⟨["due"], 0⟩, .equal, .literal ⟨.null, 0⟩, 0⟩
    let day : Literal := ⟨.string " 2024-1-31", 6⟩
    (c.withValue (.literal day)).Translates s ∧ (c.withValue (.literal day)).Matches s record
      ∧ (c.withValue (.name ⟨["done"], 6⟩)).Matches s record := by
  intro registry s record c day
  let due : Field := ⟨["due"], "task", .plain "due" .date⟩
  let done : Field := ⟨["done"], "task", .plain "done" .date⟩
  have hdue : s.resolve c.field.segments = .ok due := by decide +kernel
  have hdone : s.resolve ["done"] = .ok done := by decide +kernel
  have hday : (c.withValue (.literal day)).Translates s := by decide +kernel
  have hmatches : (c.withValue (.literal day)).Matches s record := by decide +kernel
  have hvalues : valuesAt record done.path = [.string " 2024-1-31"] := rfl
  have hwritten : Json.WrittenAs due.type (.string " 2024-1-31") day.value :=
    .text (Or.inr (Or.inl rfl))
  have hheld := comparison_with_held_value (b := ⟨["done"], 6⟩) hdue hdone rfl hvalues hwritten hday
  exact ⟨hday, hmatches, hheld.2.mp hmatches⟩

end RecordQuery
