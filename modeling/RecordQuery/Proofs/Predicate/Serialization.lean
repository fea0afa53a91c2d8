import RecordQuery.Predicate.PredicateJson
import RecordQuery.Proofs.Calendar.RoundTrip
import RecordQuery.Proofs.Model.Serialization

/-!
# Predicates are read back from JSON

The JSON form of a predicate keeps the whole predicate but for numbers that JSON does not have, as
that of an expression does: a predicate is read back if its numbers are such as JSON has
(`Predicate.inJson`), and if they are not, nothing is read in its place
(`Predicate.ofJson?_toJson`). Nothing else is lost. The predicate that matches nothing has a form
here, and a datetime is written with its fraction, in as many digits as it takes to be exact
(`readIsoDateTime?_isoText`), while its text in a query ends with the seconds.
-/

namespace RecordQuery

/-! ## Values that JSON has -/

/-- **A value that JSON has**: an integer fits 64 bits, and another number is finite. -/
def Scalar.inJson : Scalar → Bool
  | .int n => fitsInt64 n
  | .float x => x.isFinite
  | _ => true

/-- The other side of a comparison, of values that JSON has. -/
def Target.inJson : Target → Bool
  | .scalar v => v.inJson
  | .list vs => vs.all Scalar.inJson
  | .field _ => true

/-- **A predicate of values that JSON has.** -/
def Predicate.inJson : Predicate → Bool
  | .compare _ _ target => target.inJson
  | .isNull _ _ | .nothing => true
  | .and left right | .or left right => left.inJson && right.inJson
  | .not operand => operand.inJson

/-! ## Parts of a predicate -/

/-- **A datetime is read back with its fraction.** -/
theorem readIsoDateTime?_isoText (t : DateTime) : readIsoDateTime? t.isoText = some t := by
  obtain ⟨hhour, hminute, hsecond⟩ := t.two_digits
  have hfraction : t.fraction < nanosecondsPerSecond := by
    have hvalid := t.valid
    simp only [timeExists, Bool.and_eq_true, decide_eq_true_eq] at hvalid
    exact hvalid.2
  have hparts : DateTime.ofParts? t.date t.hour t.minute t.second t.fraction = some t :=
    dif_pos t.valid
  unfold readIsoDateTime? DateTime.isoText DateTime.clockText
  simp only [List.append_assoc, List.cons_append, Reading.date?_text, Reading.char?_cons,
    Reading.part?_paddedDigits hhour, Reading.part?_paddedDigits hminute,
    Reading.part?_paddedDigits hsecond, Reading.fraction?_fractionText hfraction,
    Option.bind_eq_bind, Option.bind_some]
  exact hparts

/-- **A field is read back.** -/
theorem FieldRef.ofJson?_toJson (f : FieldRef) : ofJson? f.toJson = some f := by
  simp [ofJson?, toJson, FieldType.ofJson?_name]

/-- **A value is read back** if JSON has it. -/
theorem Scalar.ofJson?_toJson (v : Scalar) :
    ofJson? v.toJson = if v.inJson then some v else none := by
  cases v with
  | int n =>
    simp only [ofJson?, toJson, tagged, Json.member?_cons, ↓reduceIte, String.reduceEq, Json.text?,
      Option.bind_eq_bind, Option.bind_some, Option.pure_def, Json.int64?_ofInt, Json.ite_some_bind]
    rfl
  | float x =>
    simp only [ofJson?, toJson, tagged, Json.member?_cons, ↓reduceIte, String.reduceEq, Json.text?,
      Option.bind_eq_bind, Option.bind_some, Option.pure_def, Json.binary64?_float,
      Json.ite_some_bind]
    rfl
  | text s => simp [ofJson?, toJson, tagged, Json.text?, inJson]
  | bool b => simp [ofJson?, toJson, tagged, Json.text?, Json.bool?, inJson]
  | date d => simp [ofJson?, toJson, tagged, Json.text?, readDate?_text, inJson]
  | datetime t => simp [ofJson?, toJson, tagged, Json.text?, readIsoDateTime?_isoText, inJson]

/-- **The other side of a comparison is read back** if JSON has its values. -/
theorem Target.ofJson?_toJson (t : Target) :
    ofJson? t.toJson = if t.inJson then some t else none := by
  cases t with
  | scalar v =>
    show (Scalar.ofJson? v.toJson).map scalar = _
    rw [Scalar.ofJson?_toJson, inJson]
    cases v.inJson <;> rfl
  | list vs =>
    show (Json.list? Scalar.ofJson? (.array (vs.map Scalar.toJson))).map list = _
    rw [Json.list?_map_all Scalar.ofJson?_toJson, inJson]
    cases vs.all Scalar.inJson <;> rfl
  | field f =>
    show (FieldRef.ofJson? f.toJson).map field = _
    rw [FieldRef.ofJson?_toJson]
    rfl

/-! ## Predicates -/

namespace Predicate

/-- What a predicate is made of is less high. -/
theorem height_le_of_not {operand : Predicate} {levels : Nat}
    (h : (Predicate.not operand).toJson.height ≤ levels + 1) : operand.toJson.height ≤ levels := by
  simp only [toJson, Json.height, Json.heightMembers] at h
  omega

theorem height_le_of_and {left right : Predicate} {levels : Nat}
    (h : (Predicate.and left right).toJson.height ≤ levels + 1) :
    left.toJson.height ≤ levels ∧ right.toJson.height ≤ levels := by
  simp only [toJson, Json.height, Json.heightMembers, Json.heightItems] at h
  omega

theorem height_le_of_or {left right : Predicate} {levels : Nat}
    (h : (Predicate.or left right).toJson.height ≤ levels + 1) :
    left.toJson.height ≤ levels ∧ right.toJson.height ≤ levels := height_le_of_and h

/-- **A predicate is read back within the height of its JSON form.** The induction is on the
levels, of which every conjunction, disjunction and negation takes one. -/
theorem ofJsonWithin?_toJson {p : Predicate} {levels : Nat} (h : p.toJson.height ≤ levels) :
    ofJsonWithin? levels p.toJson = if p.inJson then some p else none := by
  induction levels generalizing p with
  | zero => cases p <;> cases h
  | succ levels ih =>
    cases p with
    | compare field op target =>
      simp only [ofJsonWithin?, toJson, Json.member?_cons, ↓reduceIte, String.reduceEq, Json.text?,
        Option.bind_eq_bind, Option.bind_some, Option.pure_def, FieldRef.ofJson?_toJson,
        Target.ofJson?_toJson, Operator.ofSymbol?_symbol, Json.ite_some_bind]
      rfl
    | isNull field negated =>
      simp [ofJsonWithin?, toJson, Json.bool?, FieldRef.ofJson?_toJson, inJson]
    | nothing => rfl
    | and left right =>
      obtain ⟨hleft, hright⟩ := height_le_of_and h
      show ((ofJsonWithin? levels left.toJson).bind fun l =>
        (ofJsonWithin? levels right.toJson).bind fun r => some (Predicate.and l r)) = _
      rw [ih hleft, ih hright]
      exact Json.ite_some_bind_both left.inJson right.inJson left right Predicate.and
    | or left right =>
      obtain ⟨hleft, hright⟩ := height_le_of_or h
      show ((ofJsonWithin? levels left.toJson).bind fun l =>
        (ofJsonWithin? levels right.toJson).bind fun r => some (Predicate.or l r)) = _
      rw [ih hleft, ih hright]
      exact Json.ite_some_bind_both left.inJson right.inJson left right Predicate.or
    | not operand =>
      show (ofJsonWithin? levels operand.toJson).map Predicate.not = _
      rw [ih (height_le_of_not h), inJson]
      cases operand.inJson <;> rfl

/-- **A predicate is read back from its JSON form** if JSON has its values, and
otherwise nothing is read. -/
theorem ofJson?_toJson (p : Predicate) : ofJson? p.toJson = if p.inJson then some p else none :=
  ofJsonWithin?_toJson (Nat.le_refl _)

/-- **The JSON form tells predicates apart** if JSON has the values of one of them. -/
theorem toJson_inj {p p' : Predicate} (hp : p.inJson = true) (h : p.toJson = p'.toJson) : p = p' :=
  Json.eq_of_write_eq ofJson?_toJson hp h

end Predicate
end RecordQuery
