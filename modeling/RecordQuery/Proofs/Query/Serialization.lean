import RecordQuery.Proofs.Model.Serialization
import RecordQuery.Proofs.Query.Printing
import RecordQuery.Query.ExprJson

/-!
# Expressions are read back from JSON

The JSON form of an expression keeps the whole expression, the offsets included, but for numbers
that JSON does not have: one that is not finite is written as null, and an integer is read as one
of 64 bits. So an expression is read back if its numbers are such as JSON has (`Expr.inJson`), and
if they are not, nothing is read in its place (`Expr.ofJson?_toJson`). So the JSON form tells such
expressions apart (`Expr.toJson_inj`), and the tree of a query can be had back from it unless the
query has a number that is no integer (`Expr.ofJson?_toJson_of_parse`).

Reading takes as many levels as the JSON value has. A value is higher than the values that it holds,
so the levels last to the comparisons (`Expr.ofJsonWithin?_toJson`).
-/

namespace RecordQuery

/-! ## Values that JSON has -/

/-- **A literal that JSON has**: an integer fits 64 bits, and another number is finite. -/
def LiteralValue.inJson : LiteralValue → Bool
  | .int n => fitsInt64 n
  | .float x => x.isFinite
  | _ => true

/-- An operand of literals that JSON has. -/
def Operand.inJson : Operand → Bool
  | .literal l => l.value.inJson
  | .list items _ => items.all (·.value.inJson)
  | .name _ => true

/-- **An expression of literals that JSON has.** -/
def Expr.inJson : Expr → Bool
  | .logical _ left right => left.inJson && right.inJson
  | .not operand _ => operand.inJson
  | .comparison c => c.value.inJson

/-! ## Parts of an expression -/

theorem Connective.ofKeyword?_keyword (op : Connective) : ofKeyword? op.keyword = some op := by
  cases op <;> rfl

/-- A path is read back. -/
theorem NamePath.ofJson?_jsonMembers (p : NamePath) : ofJson? (.object p.jsonMembers) = some p := by
  simp [ofJson?, jsonMembers, offset?]

/-- **A literal is read back** if JSON has it. -/
theorem Literal.ofJson?_jsonMembers (l : Literal) :
    ofJson? (.object l.jsonMembers) = if l.value.inJson then some l else none := by
  obtain ⟨value, offset⟩ := l
  have hoffset : offset? (.object (value.jsonMembers ++ [("offset", .ofNat offset)]))
      = some offset := by
    cases value <;> simp [offset?, LiteralValue.jsonMembers]
  unfold ofJson? jsonMembers
  rw [hoffset]
  cases value with
  | int n =>
    simp only [LiteralValue.jsonMembers, List.cons_append, Json.member?_cons, ↓reduceIte,
      Json.text?, String.reduceEq, Option.bind_some, Option.bind_eq_bind, Option.pure_def,
      Json.int64?_ofInt, Json.ite_some_bind]
    rfl
  | float x =>
    simp only [LiteralValue.jsonMembers, List.cons_append, Json.member?_cons, ↓reduceIte,
      Json.text?, String.reduceEq, Option.bind_some, Option.bind_eq_bind, Option.pure_def,
      Json.binary64?_float, Json.ite_some_bind]
    rfl
  | string s | bool b | null =>
    simp [LiteralValue.jsonMembers, Json.text?, Json.bool?, LiteralValue.inJson]

/-- What kind of operand a path or a literal is does not matter for reading it. -/
theorem NamePath.ofJson?_kind (kind : Json) (ms : List (String × Json)) :
    ofJson? (.object (("kind", kind) :: ms)) = ofJson? (.object ms) := by
  simp [ofJson?, offset?]

theorem Literal.ofJson?_kind (kind : Json) (ms : List (String × Json)) :
    ofJson? (.object (("kind", kind) :: ms)) = ofJson? (.object ms) := by
  simp [ofJson?, offset?]

/-- **An operand is read back** if JSON has its literals. -/
theorem Operand.ofJson?_toJson (o : Operand) :
    ofJson? o.toJson = if o.inJson then some o else none := by
  cases o with
  | literal l =>
    simp only [ofJson?, toJson, Json.member?_cons, ↓reduceIte, Json.text?, Option.bind_eq_bind,
      Option.bind_some, Option.pure_def, Literal.ofJson?_kind, Literal.ofJson?_jsonMembers,
      Json.ite_some_bind]
    rfl
  | list items offset =>
    have hitems := Json.list?_map_all Literal.ofJson?_jsonMembers items
    simp only [ofJson?, toJson, offset?, Json.member?_cons, ↓reduceIte, String.reduceEq, Json.text?,
      Option.bind_eq_bind, Option.bind_some, Option.pure_def, Json.nat?_ofNat, hitems,
      Json.ite_some_bind]
    rfl
  | name path =>
    simp [ofJson?, toJson, Json.text?, NamePath.ofJson?_kind, NamePath.ofJson?_jsonMembers, inJson]

/-- **A comparison is read back** if JSON has the literals of its operand. -/
theorem Comparison.ofJson?_toJson (c : Comparison) :
    ofJson? c.toJson = if c.value.inJson then some c else none := by
  simp [ofJson?, toJson, offset?, Json.text?, NamePath.ofJson?_jsonMembers, Operand.ofJson?_toJson,
    Operator.ofSymbol?_symbol, Json.ite_some_bind]

/-! ## Expressions -/

namespace Expr

/-- What an expression is made of is less high. -/
theorem height_le_of_not {operand : Expr} {offset levels : Nat}
    (h : (Expr.not operand offset).toJson.height ≤ levels + 1) :
    operand.toJson.height ≤ levels := by
  simp only [toJson, Json.height, Json.heightMembers] at h
  omega

theorem height_le_of_logical {op : Connective} {left right : Expr} {levels : Nat}
    (h : (Expr.logical op left right).toJson.height ≤ levels + 1) :
    left.toJson.height ≤ levels ∧ right.toJson.height ≤ levels := by
  simp only [toJson, Json.height, Json.heightMembers] at h
  omega

/-- **An expression is read back within the height of its JSON form.** The induction is on the
levels, of which every connective and every negation takes one. -/
theorem ofJsonWithin?_toJson {e : Expr} {levels : Nat} (h : e.toJson.height ≤ levels) :
    ofJsonWithin? levels e.toJson = if e.inJson then some e else none := by
  induction levels generalizing e with
  | zero => cases e <;> cases h
  | succ levels ih =>
    cases e with
    | logical op left right =>
      obtain ⟨hleft, hright⟩ := height_le_of_logical h
      simp only [ofJsonWithin?, toJson, Json.member?_cons, ↓reduceIte, String.reduceEq, Json.text?,
        Option.bind_eq_bind, Option.bind_some, Option.pure_def, Connective.ofKeyword?_keyword,
        ih hleft, ih hright]
      exact Json.ite_some_bind_both left.inJson right.inJson left right (Expr.logical op)
    | not operand offset =>
      simp only [ofJsonWithin?, toJson, offset?, Json.member?_cons, ↓reduceIte, String.reduceEq,
        Json.text?, Option.bind_eq_bind, Option.bind_some, Option.pure_def, Json.nat?_ofNat,
        ih (height_le_of_not h), Json.ite_some_bind]
      rfl
    | comparison c =>
      have hnode : c.toJson.member? "node" = some (.string "comparison") := by
        simp [Comparison.toJson]
      simp only [ofJsonWithin?, toJson, hnode, Comparison.ofJson?_toJson, Json.text?,
        Option.bind_eq_bind, Option.bind_some, Option.pure_def, Json.ite_some_bind]
      rfl

/-- **An expression is read back from its JSON form** if JSON has its literals, and
otherwise nothing is read. -/
theorem ofJson?_toJson (e : Expr) : ofJson? e.toJson = if e.inJson then some e else none :=
  ofJsonWithin?_toJson (Nat.le_refl _)

/-- **The JSON form tells expressions apart** if JSON has the literals of one of them. -/
theorem toJson_inj {e e' : Expr} (he : e.inJson = true) (h : e.toJson = e'.toJson) : e = e' :=
  Json.eq_of_write_eq ofJson?_toJson he h

/-- JSON has the literals that can be written in a query. -/
theorem inJson_of_printable {e : Expr} (h : e.Printable) : e.inJson = true := by
  have hliteral : ∀ {v : LiteralValue}, v.Printable → v.inJson = true := by
    intro v hv
    cases v with
    | int n =>
      have hbounds : leastInt64 ≤ n ∧ n ≤ greatestInt64 := hv
      simp [LiteralValue.inJson, fitsInt64, hbounds]
    | float x => exact hv.elim
    | string s | bool b | null => rfl
  induction e with
  | logical op left right ihl ihr =>
    obtain ⟨hleft, hright⟩ := List.forall_mem_append.mp h
    rw [inJson, ihl hleft, ihr hright]
    rfl
  | not operand offset ih => exact ih h
  | comparison c =>
    obtain ⟨field, op, value, offset⟩ := c
    obtain ⟨-, hvalue⟩ := List.forall_mem_singleton.mp h
    show value.inJson = true
    cases value with
    | literal l => exact hliteral hvalue
    | list items offset => exact List.all_eq_true.mpr fun l hl => hliteral (hvalue l hl)
    | name path => rfl

/-- **The tree of a query is read back from its JSON form**, unless it has a number that is no
integer. -/
theorem ofJson?_toJson_of_parse {q : String} {e : Expr} (h : parse q = .ok e) (hfloat : e.NoFloat) :
    ofJson? e.toJson = some e := by
  rw [ofJson?_toJson, if_pos (inJson_of_printable (printable_of_parse h hfloat))]

end Expr
end RecordQuery
