import RecordQuery.Proofs.Calendar.RoundTrip
import RecordQuery.Proofs.Number.Rounding
import RecordQuery.Proofs.Predicate.FieldComparison
import RecordQuery.Proofs.Query.Printing

/-!
# Comparing with an integer

A record may give an integer as a number or as a text. A number that is an integer of 64 bits with
a sign is compared exactly with the integer of a query. Every other one is compared as a binary64
number, and so is the query's integer then; beyond `2 ^ 53` this may find two different integers
equal (`integer_equals_neighbour`).

Where it does not, the comparison says what the integers say (`integer_comparison_exact`): always
for a number of 64 bits with a sign, for any integers up to `2 ^ 53`, and for all others that have
different binary64 numbers.
-/

namespace RecordQuery

/-! ## Integers that a record gives -/

/-- **Whether a value gives an integer**, as a number or as a text. -/
inductive Json.Gives : Json → Int → Prop
  | number {m : Int} : Gives (.number (.int m)) m
  | text {t : String} {m : Int} (hm : readInt64? (Text.trim t.toList) = some m) :
      Gives (.string t) m

/-- The decimal text of an integer is a text without blanks. -/
theorem trim_intText (m : Int) : Text.trim (intText m) = intText m := by
  have hblank : ∀ c ∈ intText m, Text.isBlank c = false := by
    intro c hc
    unfold intText at hc
    split at hc
    · rcases List.mem_cons.mp hc with rfl | hc
      · decide
      · exact isBlank_of_isDigit (isDigit_of_mem_digitsOf hc)
    · exact isBlank_of_isDigit (isDigit_of_mem_digitsOf hc)
  exact Text.trim_eq_self (fun c hc => hblank c (List.mem_of_mem_head? hc))
    (fun c hc => hblank c (List.mem_of_getLast? hc))

/-- **An integer of 64 bits is given by its decimal text.** -/
theorem Json.gives_intText {m : Int} (hm : fitsInt64 m = true) :
    Gives (.string (String.ofList (intText m))) m := by
  obtain ⟨hint, hvalue⟩ := writtenInt_intText m
  have hfits : leastInt64 ≤ m ∧ m ≤ greatestInt64 := by simpa [fitsInt64] using hm
  refine .text ?_
  rw [String.toList_ofList, trim_intText, readInt64?_eq_some_iff, hvalue]
  exact ⟨⟨hint, hfits⟩, rfl⟩

namespace Json.Gives

variable {v : Json} {m n : Int}

/-- The binary64 number of a value that gives an integer is that of the integer. -/
theorem asNumber?_eq (h : v.Gives m) : v.asNumber? = some (.ofInt m) := by
  cases h with
  | number => rfl
  | text hm => simp [Json.asNumber?, typedNumber?, hm, Scalar.toBinary64?]

/-- If it gives one that is compared exactly, that is the integer. -/
theorem eq_of_asInt64? (h : v.Gives m) {k : Int} (hk : v.asInt64? = some k) : k = m := by
  cases h with
  | number =>
    unfold Json.asInt64? at hk
    dsimp only at hk
    split at hk
    · exact (Option.some.inj hk).symm
    · exact nomatch hk
  | text _ => exact nomatch hk

/-- **The order of a value that gives an integer** to an integer is that of the integers:
when the value is an integer of 64 bits, and else unless the two differ and have one
binary64 number in common. -/
theorem compareValue?_eq (h : v.Gives m)
    (hexact : v.asInt64? = some m ∨ (Binary64.ofInt m = .ofInt n → m = n)) :
    compareValue? v (.int n) = some (compare m n) := by
  cases hv : v.asInt64? with
  | some k => simp [compareValue?, hv, h.eq_of_asInt64? hv]
  | none =>
    have happart := hexact.resolve_left (by simp [hv])
    simp [compareValue?, hv, h.asNumber?_eq, Binary64.compare?_ofInt happart]

end Json.Gives

/-! ## Comparisons -/

/-- **How an operator relates two integers.** -/
def Operator.Relates : Operator → Int → Int → Prop
  | .equal, m, n | .isIn, m, n => m = n
  | .notEqual, m, n | .notIn, m, n => m ≠ n
  | .less, m, n => m < n
  | .lessEqual, m, n => m ≤ n
  | .greater, m, n => m > n
  | .greaterEqual, m, n => m ≥ n
  | .contains, _, _ | .notContains, _, _ => False

instance (op : Operator) (m n : Int) : Decidable (op.Relates m n) :=
  match op with
  | .equal | .isIn => inferInstanceAs (Decidable (m = n))
  | .notEqual | .notIn => inferInstanceAs (Decidable (m ≠ n))
  | .less => inferInstanceAs (Decidable (m < n))
  | .lessEqual => inferInstanceAs (Decidable (m ≤ n))
  | .greater => inferInstanceAs (Decidable (m > n))
  | .greaterEqual => inferInstanceAs (Decidable (m ≥ n))
  | .contains | .notContains => inferInstanceAs (Decidable False)

/-- An operator accepts the order of the integers that it relates. -/
theorem accepts_compare_iff {op : Operator} (hop : op ∈ Operator.orders) {m n : Int} :
    op.accepts (compare m n) = true ↔ op.Relates m n := by
  simp only [Operator.orders, List.mem_cons, List.not_mem_nil, or_false] at hop
  rcases Int.lt_trichotomy m n with h | rfl | h
  · rw [Int.compare_eq_lt.mpr h]
    rcases hop with rfl | rfl | rfl | rfl | rfl <;> simp [Operator.accepts, Operator.Relates]
      <;> omega
  · rw [Int.compare_eq_eq.mpr rfl]
    rcases hop with rfl | rfl | rfl | rfl | rfl <;> simp [Operator.accepts, Operator.Relates]
  · rw [Int.compare_eq_gt.mpr h]
    rcases hop with rfl | rfl | rfl | rfl | rfl <;> simp [Operator.accepts, Operator.Relates]
      <;> omega

/-- A comparison of one value matches when its order is accepted. -/
theorem comparisonHolds_scalar_of_single {record v : Json} {f : FieldRef} {op : Operator}
    {x : Scalar} (hop : op ∈ Operator.orders) (hv : valuesAt record f.path = [v]) :
    comparisonHolds record f op (.scalar x) = (compareValue? v x).any op.accepts := by
  unfold comparisonHolds
  simp [Operator.positive?_of_mem_orders hop, anyStands, hv, stands_eq_accepts hop]

variable {s : Schema} {c : Comparison} {F : Field} {record v : Json} {m n : Int}

/-- **Integers are compared exactly** as long as they are told apart: a field that holds an
integer, in whatever form, matches by each operator when the integers stand so to each other. An
integer of 64 bits with a sign that is given as a number is told from every other one; in another
form it is told from those with another binary64 number. -/
theorem integer_comparison_exact {offset : Nat} (hF : s.resolve c.field.segments = .ok F)
    (htype : F.type = .number) (hvalue : c.value = .literal ⟨.int n, offset⟩)
    (hv : valuesAt record F.path = [v]) (hm : v.Gives m)
    (hexact : v.asInt64? = some m ∨ (Binary64.ofInt m = .ofInt n → m = n)) :
    ∀ op ∈ Operator.orders, (c.withOp op).Matches s record ↔ op.Relates m n := by
  have hnumber : ∀ op ∈ Operator.orders,
      op ∈ FieldType.operators .number ∧ op.takesList = false := by decide
  intro op hop
  obtain ⟨htable, hlist⟩ := hnumber op hop
  rw [matches_literal_iff hvalue hF (.int htype) (htype ▸ htable) hlist,
    comparisonHolds_scalar_of_single hop hv, hm.compareValue?_eq hexact, Option.any_some]
  exact accepts_compare_iff hop

/-- The text of `-(2 ^ 53)` is less than the next integer, and not equal to it. -/
theorem integer_comparison_exact_text :
    let registry := Registry.empty.withModel "entry" ⟨[.plain "balance" .number]⟩
    let s : Schema := ⟨registry, "entry", .standard, by decide +kernel, by decide +kernel⟩
    let text : Json := .string (String.ofList (intText (-9007199254740992)))
    let record : Json := .object [("balance", text)]
    let c : Comparison := ⟨⟨["balance"], 0⟩, .equal, .literal ⟨.int (-9007199254740991), 10⟩, 0⟩
    text.Gives (-9007199254740992) ∧ (c.withOp .less).Matches s record
      ∧ ¬ (c.withOp .equal).Matches s record := by
  intro registry s text record c
  let balance : Field := ⟨["balance"], "entry", .plain "balance" .number⟩
  have hbalance : s.resolve c.field.segments = .ok balance := by decide +kernel
  have htext : text.Gives (-9007199254740992) := Json.gives_intText (by decide)
  have hvalues : valuesAt record balance.path = [text] := rfl
  have hexact := integer_comparison_exact hbalance rfl rfl hvalues htext
    (Or.inr (Binary64.eq_of_ofInt_eq (by decide) (by decide)))
  have hequal : ¬ Operator.equal.Relates (-9007199254740992) (-9007199254740991) := by decide
  exact ⟨htext, (hexact .less (by decide)).mpr (by decide),
    fun h => hequal ((hexact .equal (by decide)).mp h)⟩

/-- **Two integers that share a binary64 number are found equal** when one of them is given as a
text, or is a number that does not fit 64 bits with a sign. -/
theorem integer_equals_neighbour :
    let registry := Registry.empty.withModel "account" ⟨[.plain "number" .number]⟩
    let s : Schema := ⟨registry, "account", .standard, by decide +kernel, by decide +kernel⟩
    let text : Json := .string "9007199254740993"
    let large : Json := .number (.int 9223372036854775808)
    let c (n : Int) : Comparison := ⟨⟨["number"], 0⟩, .equal, .literal ⟨.int n, 9⟩, 0⟩
    text.Gives 9007199254740993 ∧ large.Gives 9223372036854775808
      ∧ (c 9007199254740992).Matches s (.object [("number", text)])
      ∧ (c 9223372036854775807).Matches s (.object [("number", large)])
      ∧ ¬ Operator.equal.Relates 9007199254740993 9007199254740992
      ∧ ¬ Operator.equal.Relates 9223372036854775808 9223372036854775807 := by
  intro registry s text large c
  exact ⟨Json.gives_intText (m := 9007199254740993) (by decide), .number,
    by decide +kernel, by decide +kernel, by decide, by decide⟩

end RecordQuery
