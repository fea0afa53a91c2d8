import RecordQuery.Proofs.Calendar.RoundTrip
import RecordQuery.Proofs.Predicate.Typing
import RecordQuery.Proofs.Query.Printing

/-!
# Predicates as expressions

A predicate is written as a query by writing an expression: `Predicate.expr` gives every value
back as a literal and every field by its whole path. The text of the predicate is the text of that
expression (`Predicate.render_expr`), and if the predicate is well typed, the expression means it
(`Predicate.means_expr`).

Not every predicate can be written (`Predicate.Writable`): no query means nothing at
all, a number that is no integer is written in the shortest form, and a datetime is
written without its fraction.
-/

namespace RecordQuery

/-! ## The expression of a predicate -/

/-- A value as a literal. -/
def Scalar.literal : Scalar → LiteralValue
  | .int n => .int n
  | .float x => .float x
  | .text s => .string s
  | .bool b => .bool b
  | .date d => .string (String.ofList d.text)
  | .datetime t => .string (String.ofList t.text)

/-- The other side of a comparison as an operand. -/
def Target.operand : Target → Operand
  | .scalar v => .literal ⟨v.literal, 0⟩
  | .list vs => .list (vs.map fun v => ⟨v.literal, 0⟩) 0
  | .field f => .name ⟨f.path, 0⟩

/-- **The expression that a predicate is written as.** -/
def Predicate.expr : Predicate → Expr
  | .compare f op t => .comparison ⟨⟨f.path, 0⟩, op, t.operand, 0⟩
  | .isNull f negated =>
    .comparison ⟨⟨f.path, 0⟩, if negated then .notEqual else .equal, .literal ⟨.null, 0⟩, 0⟩
  | .nothing => default
  | .and left right => .logical .and left.expr right.expr
  | .or left right => .logical .or left.expr right.expr
  | .not operand => .not operand.expr 0

/-- A value that is read back from its text. -/
def Scalar.Writable : Scalar → Prop
  | .int n => leastInt64 ≤ n ∧ n ≤ greatestInt64
  | .float _ => False
  | .datetime t => t.fraction = 0
  | _ => True

/-- The other side of a comparison of which every part can be written. -/
def Target.Writable : Target → Prop
  | .scalar v => v.Writable
  | .list vs => ∀ v ∈ vs, v.Writable
  | .field f => NamePath.Printable ⟨f.path, 0⟩

/-- **A predicate of which every part can be written.** -/
def Predicate.Writable : Predicate → Prop
  | .compare f _ t => NamePath.Printable ⟨f.path, 0⟩ ∧ t.Writable
  | .isNull f _ => NamePath.Printable ⟨f.path, 0⟩
  | .nothing => False
  | .and left right | .or left right => left.Writable ∧ right.Writable
  | .not operand => operand.Writable

/-! ## The text -/

/-- A digit, or a sign that dates and times are written with, needs no escape. -/
theorem escapeChar_of_clock {c : Char}
    (hc : c.isDigit = true ∨ c = '-' ∨ c = '+' ∨ c = ':' ∨ c = ' ') :
    Text.escapeChar c = [c] := by
  unfold Text.escapeChar
  split
  all_goals first
    | exact absurd hc (by decide)
    | rfl

/-- A text without special characters is quoted as it is. -/
theorem escape_eq_self {cs : List Char} (h : ∀ c ∈ cs, Text.escapeChar c = [c]) :
    Text.escape cs = cs := by
  induction cs with
  | nil => rfl
  | cons c cs ih =>
    obtain ⟨hc, hcs⟩ := List.forall_mem_cons.mp h
    rw [Text.escape_cons, hc, ih hcs]
    rfl

theorem escape_dateText (d : Date) : ∀ c ∈ d.text, Text.escapeChar c = [c] := by
  have hdigit : ∀ {width n : Nat}, ∀ c ∈ paddedDigits width n, Text.escapeChar c = [c] :=
    fun c hc => escapeChar_of_clock (Or.inl (isDigit_of_mem_paddedDigits hc))
  have hyear : ∀ c ∈ yearText d.year, Text.escapeChar c = [c] := by
    unfold yearText
    split
    · exact hdigit
    · refine List.forall_mem_cons.mpr ⟨?_, hdigit⟩
      split <;> rfl
  unfold Date.text
  refine List.forall_mem_append.mpr ⟨List.forall_mem_append.mpr ⟨hyear, ?_⟩, ?_⟩
  · exact List.forall_mem_cons.mpr ⟨rfl, hdigit⟩
  · exact List.forall_mem_cons.mpr ⟨rfl, hdigit⟩

theorem escape_datetimeText (t : DateTime) : ∀ c ∈ t.text, Text.escapeChar c = [c] := by
  have hdigit : ∀ {width n : Nat}, ∀ c ∈ paddedDigits width n, Text.escapeChar c = [c] :=
    fun c hc => escapeChar_of_clock (Or.inl (isDigit_of_mem_paddedDigits hc))
  unfold DateTime.text DateTime.clockText
  refine List.forall_mem_append.mpr ⟨escape_dateText t.date, List.forall_mem_cons.mpr ⟨rfl, ?_⟩⟩
  refine List.forall_mem_append.mpr ⟨List.forall_mem_append.mpr ⟨hdigit, ?_⟩, ?_⟩
  · exact List.forall_mem_cons.mpr ⟨rfl, hdigit⟩
  · exact List.forall_mem_cons.mpr ⟨rfl, hdigit⟩

/-- **A value is written as its literal.** -/
theorem Scalar.render_literal {v : Scalar} (h : v.Writable) : v.literal.render = v.render := by
  have hquote : ∀ {cs : List Char}, (∀ c ∈ cs, Text.escapeChar c = [c]) →
      Text.quote (String.ofList cs) = String.ofList ('"' :: (cs ++ ['"'])) := by
    intro cs hcs
    unfold Text.quote
    rw [String.toList_ofList, escape_eq_self hcs]
  cases v with
  | float x => exact h.elim
  | date d => exact hquote (escape_dateText d)
  | datetime t => exact hquote (escape_datetimeText t)
  | _ => rfl

theorem Target.render_operand {t : Target} (h : t.Writable) : t.operand.render = t.render := by
  cases t with
  | scalar v => exact Scalar.render_literal h
  | list vs =>
    have hmap : (vs.map fun v => (⟨v.literal, 0⟩ : Literal)).map (·.value.render)
        = vs.map Scalar.render := by
      rw [List.map_map]
      exact List.map_congr_left fun v hv => Scalar.render_literal (h v hv)
    exact congrArg (fun texts => "[" ++ String.intercalate ", " texts ++ "]") hmap
  | field f => rfl

/-- **A predicate is written as its expression.** -/
theorem Predicate.render_expr {p : Predicate} (h : p.Writable) : p.expr.render = p.render := by
  induction p with
  | compare f op t =>
    show dotted f.path ++ " " ++ op.symbol ++ " " ++ t.operand.render = f.dotted ++ _ ++ _ ++ _ ++ _
    rw [Target.render_operand h.2]
    rfl
  | isNull f negated =>
    cases negated <;> exact String.ext (by simp [expr, render, Expr.render, Comparison.render,
      FieldRef.dotted, Operand.render, LiteralValue.render, Operator.symbol])
  | nothing => exact h.elim
  | and left right ihl ihr | or left right ihl ihr =>
    unfold expr render Expr.render
    rw [ihl h.1, ihr h.2]
    exact String.ext (by simp [Connective.keyword])
  | not operand ih =>
    unfold expr render Expr.render
    rw [ih h]

/-- The literal of a value can be written. -/
theorem Scalar.printable_literal {v : Scalar} (h : v.Writable) : v.literal.Printable := by
  cases v with
  | int n => exact h
  | float x => exact h.elim
  | _ => trivial

theorem Target.printable_operand {t : Target} (h : t.Writable) : t.operand.Printable := by
  cases t with
  | scalar v => exact Scalar.printable_literal h
  | list vs =>
    intro l hl
    obtain ⟨v, hv, rfl⟩ := List.mem_map.mp hl
    exact Scalar.printable_literal (h v hv)
  | field f => exact h

/-- **The expression of a predicate can be written.** -/
theorem Predicate.printable_expr {p : Predicate} (h : p.Writable) : p.expr.Printable := by
  induction p with
  | compare f op t => exact List.forall_mem_singleton.mpr ⟨h.1, Target.printable_operand h.2⟩
  | isNull f negated => exact List.forall_mem_singleton.mpr ⟨h, trivial⟩
  | nothing => exact h.elim
  | and left right ihl ihr | or left right ihl ihr =>
    exact List.forall_mem_append.mpr ⟨ihl h.1, ihr h.2⟩
  | not operand ih => exact ih h

/-! ## The meaning -/

section Meaning

variable {s : Schema} {F : Field} {op : Operator}

/-- **A value of a type is what its literal is coerced to.** A value of a choice stands for
itself, whatever labels there are. -/
theorem Scalar.coerces_literal {v : Scalar} (h : v.Writable) (hv : v.IsOf F) :
    Coerces F v.literal v := by
  cases v with
  | int n => exact .int hv
  | float x => exact h.elim
  | text t =>
    rcases hv with ht | ⟨ht, hg⟩
    · exact .text ht
    · exact .choice ht (.value hg)
  | bool b => exact .bool hv
  | date d => exact .date hv (by rw [String.toList_ofList, readDate?_text])
  | datetime t => exact .datetime hv (by rw [String.toList_ofList, readDateTime?_text h])

/-- A reference to a field is the field's own. -/
theorem FieldRef.Names.eq {r : FieldRef} (h : r.Names s F) : (⟨F.path, F.type⟩ : FieldRef) = r := by
  obtain ⟨-, -, hpath, htype⟩ := h
  rw [← hpath, ← htype]

/-- A field that is referred to is found at its path. -/
theorem FieldRef.Names.resolve_path {r : FieldRef} (h : r.Names s F) :
    s.resolve r.path = .ok F := by
  obtain ⟨hreaches, ht, hpath, -⟩ := h
  rw [hpath]
  exact hreaches.resolve_path ht

/-- **A comparison with the operand of a target means the comparison with the target.** -/
theorem Target.compares_operand {t : Target} (h : t.Writable) (hop : op ∈ F.type.operators)
    (ht : t.IsFor s F op) : Compares s F op t.operand (.compare ⟨F.path, F.type⟩ op t) := by
  have hsingle : op.takesList = false → ¬ (op = .isIn ∨ op = .notIn) := fun hfalse hin =>
    absurd (takesList_eq_true_iff.mpr hin) (by simp [hfalse])
  cases t with
  | scalar v =>
    have hnull : v.literal ≠ .null := by cases v <;> exact nofun
    exact .literal hnull hop (hsingle ht.1) (Scalar.coerces_literal h ht.2)
  | list vs =>
    obtain ⟨hin, hne, hvs⟩ := ht
    refine .list hop (takesList_eq_true_iff.mp hin) (by simpa using hne) ?_
    rw [List.forall₂_map_left_iff, List.forall₂_same]
    exact fun v hv => Scalar.coerces_literal (h v hv) (hvs v hv)
  | field r =>
    obtain ⟨hin, G, hG, hcomparable⟩ := ht
    have hresolve : s.resolve r.path = .ok G := hG.resolve_path
    rw [← hG.eq] at hresolve ⊢
    exact .name hop (hsingle hin) hresolve (comparableWith_eq_true_iff.mp hcomparable)

/-- **The expression of a well-typed predicate means it.** -/
theorem Predicate.means_expr {p : Predicate} (h : p.Writable) (ht : p.WellTyped s) :
    Means s p.expr p := by
  induction p with
  | compare r op t =>
    obtain ⟨F, hF, hop, ht⟩ := ht
    have hcompares := Target.compares_operand h.2 hop ht
    rw [hF.eq] at hcompares
    exact .comparison hF.resolve_path hcompares
  | isNull r negated =>
    obtain ⟨F, hF⟩ := ht
    refine .comparison hF.resolve_path ?_
    rw [← hF.eq]
    cases negated with
    | true => exact .isNotNull rfl
    | false => exact .isNull rfl
  | nothing => exact h.elim
  | and left right ihl ihr => exact .and (ihl h.1 ht.1) (ihr h.2 ht.2)
  | or left right ihl ihr => exact .or (ihl h.1 ht.1) (ihr h.2 ht.2)
  | not operand ih => exact .not (ih h ht)

end Meaning
end RecordQuery
