import RecordQuery.Proofs.Query.Bounds
import RecordQuery.Proofs.Search.Meaning

/-!
# How deep a predicate is

A predicate has the shape of the tree that it is translated from, with one exception: a comparison
by `not in` with an empty list becomes the negation of the predicate that matches nothing. So a
path of the predicate has at most one negation more than a path of the tree (`Means.follows`), and
what bounds the tree bounds the predicate.

What is done with a tree or a predicate is done by recursion over its shape: it is translated,
written or applied to a record. None of these recursions needs more calls than the limits of the
reader allow, whatever the length of the query (`search_bounded`).
-/

namespace RecordQuery

/-! ## Recursions -/

/-- How an expression is translated, as a recursion. -/
def Expr.translation (s : Schema) :
    Shape.Cases Connective Nat Comparison (Except MeaningError Predicate) where
  leaf c := translateComparison s c
  negation _ operand := operand.map .not
  joint op left right := left.bind fun l => right.map (op.join l)

theorem Expr.fold_translation (s : Schema) (e : Expr) :
    e.shape.fold (translation s) = translate s e := by
  induction e with
  | logical op left right ihl ihr =>
    rw [shape, Shape.fold, ihl, ihr, translate]
    cases translate s left <;> cases translate s right <;> rfl
  | not operand offset ih =>
    rw [shape, Shape.fold, ih, translate]
    cases translate s operand <;> rfl
  | comparison c => rfl

namespace Predicate

/-- **The shape of a predicate.** -/
def shape : Predicate → Shape Connective Unit Predicate
  | .and left right => .joint .and left.shape right.shape
  | .or left right => .joint .or left.shape right.shape
  | .not operand => .negation () operand.shape
  | .compare field op target => .leaf (.compare field op target)
  | .isNull field negated => .leaf (.isNull field negated)
  | .nothing => .leaf .nothing

/-- How a predicate is applied to a record, as a recursion. -/
def application (record : Json) : Shape.Cases Connective Unit Predicate Bool where
  leaf
    | .compare field op target => comparisonHolds record field op target
    | .isNull field negated =>
      ((valuesAt record field.path).isEmpty || (valuesAt record field.path).any Json.isNull) !=
        negated
    | _ => false
  negation _ operand := !operand
  joint
    | .and, left, right => left && right
    | .or, left, right => left || right

theorem fold_application (record : Json) (p : Predicate) :
    p.shape.fold (application record) = p.holds record := by
  induction p with
  | and left right ihl ihr => rw [shape, Shape.fold, ihl, ihr, holds]; rfl
  | or left right ihl ihr => rw [shape, Shape.fold, ihl, ihr, holds]; rfl
  | not operand ih => rw [shape, Shape.fold, ih, holds]; rfl
  | compare field op target => rfl
  | isNull field negated => rfl
  | nothing => rfl

/-- How a predicate is written, as a recursion. -/
def rendering : Shape.Cases Connective Unit Predicate String where
  leaf
    | .compare field op target => field.dotted ++ " " ++ op.symbol ++ " " ++ target.render
    | .isNull field negated => field.dotted ++ (if negated then " != null" else " = null")
    | _ => "<no match>"
  negation _ operand := "not " ++ operand
  joint op left right := "(" ++ left ++ " " ++ op.keyword ++ " " ++ right ++ ")"

theorem fold_rendering (p : Predicate) : p.shape.fold rendering = p.render := by
  have hjoin : ∀ (keyword left right : String),
      "(" ++ left ++ " " ++ keyword ++ " " ++ right ++ ")"
        = "(" ++ left ++ (" " ++ keyword ++ " ") ++ right ++ ")" := by
    intro keyword left right
    simp only [String.append_assoc]
  induction p with
  | and left right ihl ihr =>
    rw [shape, Shape.fold, ihl, ihr, render]
    exact hjoin "and" left.render right.render
  | or left right ihl ihr =>
    rw [shape, Shape.fold, ihl, ihr, render]
    exact hjoin "or" left.render right.render
  | not operand ih => rw [shape, Shape.fold, ih, render]; rfl
  | compare field op target => rfl
  | isNull field negated => rfl
  | nothing => rfl

end Predicate

/-! ## From the tree to the predicate -/

namespace Shape

/-- **Every path of a shape comes from a path of another one**: it has as many joints, and at
most one negation more. -/
def Follows {J N L J' N' L' : Type} (t : Shape J N L) (t' : Shape J' N' L') : Prop :=
  ∀ path ∈ t.paths, ∃ path' ∈ t'.paths, path.countP Node.isJoint = path'.countP Node.isJoint
    ∧ path.countP Node.isNegation ≤ path'.countP Node.isNegation + 1

section

variable {J N L J' N' L' : Type} {t left right : Shape J N L} {t' left' right' : Shape J' N' L'}

theorem follows_leaf (l : L) (l' : L') :
    (Shape.leaf l : Shape J N L).Follows (Shape.leaf l' : Shape J' N' L') := by
  intro path hpath
  obtain rfl := mem_paths_leaf.mp hpath
  exact ⟨_, mem_paths_leaf.mpr rfl, rfl, Nat.zero_le _⟩

/-- A negated leaf has the one negation more. -/
theorem follows_negation_leaf (n : N) (l : L) (l' : L') :
    (Shape.negation n (.leaf l) : Shape J N L).Follows (Shape.leaf l' : Shape J' N' L') := by
  intro path hpath
  obtain ⟨rest, hrest, rfl⟩ := mem_paths_negation.mp hpath
  obtain rfl := mem_paths_leaf.mp hrest
  exact ⟨_, mem_paths_leaf.mpr rfl, rfl, Nat.le_refl _⟩

theorem Follows.negation (h : t.Follows t') (n : N) (n' : N') :
    (Shape.negation n t).Follows (Shape.negation n' t') := by
  intro path hpath
  obtain ⟨rest, hrest, rfl⟩ := mem_paths_negation.mp hpath
  obtain ⟨rest', hrest', hjoints, hnegations⟩ := h rest hrest
  refine ⟨_, mem_paths_negation.mpr ⟨rest', hrest', rfl⟩, ?_, ?_⟩
  · rwa [List.countP_cons_of_neg Bool.false_ne_true, List.countP_cons_of_neg Bool.false_ne_true]
  · rw [List.countP_cons_of_pos rfl, List.countP_cons_of_pos rfl]
    exact Nat.succ_le_succ hnegations

theorem Follows.joint (hl : left.Follows left') (hr : right.Follows right') (j : J) (j' : J') :
    (Shape.joint j left right).Follows (Shape.joint j' left' right') := by
  intro path hpath
  obtain ⟨rest, hrest, rfl⟩ := mem_paths_joint.mp hpath
  have hpart : ∃ rest', (rest' ∈ left'.paths ∨ rest' ∈ right'.paths)
      ∧ rest.countP Node.isJoint = rest'.countP Node.isJoint
      ∧ rest.countP Node.isNegation ≤ rest'.countP Node.isNegation + 1 := by
    rcases hrest with hrest | hrest
    · obtain ⟨rest', hrest', h⟩ := hl rest hrest
      exact ⟨rest', Or.inl hrest', h⟩
    · obtain ⟨rest', hrest', h⟩ := hr rest hrest
      exact ⟨rest', Or.inr hrest', h⟩
  obtain ⟨rest', hrest', hjoints, hnegations⟩ := hpart
  refine ⟨_, mem_paths_joint.mpr ⟨rest', hrest', rfl⟩, ?_, ?_⟩
  · rw [List.countP_cons_of_pos rfl, List.countP_cons_of_pos rfl, hjoints]
  · rwa [List.countP_cons_of_neg Bool.false_ne_true, List.countP_cons_of_neg Bool.false_ne_true]

end

end Shape

variable {s : Schema} {p : Predicate}

/-- A comparison is a leaf of the tree, and of the predicate unless its list is empty. -/
theorem Compares.follows {F : Field} {op : Operator} {v : Operand} (h : Compares s F op v p)
    (c : Comparison) :
    p.shape.Follows (Expr.comparison c).shape := by
  cases h with
  | notInEmpty _ _ => exact Shape.follows_negation_leaf _ _ _
  | isNull _ | isNotNull _ | inEmpty _ _ | list _ _ _ _ | literal _ _ _ _ | name _ _ _ _ =>
    exact Shape.follows_leaf _ _

/-- **A predicate follows the tree that it is the meaning of.** -/
theorem Means.follows {e : Expr} (h : Means s e p) : p.shape.Follows e.shape := by
  induction h with
  | and _ _ ihl ihr => exact ihl.joint ihr _ _
  | or _ _ ihl ihr => exact ihl.joint ihr _ _
  | not _ ih => exact ih.negation _ _
  | comparison _ h => exact h.follows _

/-- **Accepted queries have bounded trees.** Whatever the length of a query, its tree has at most
256 comparisons and on each path at most 64 negations and 255 conjunctions and disjunctions; its
predicate has at most 320 of all three. So 320 calls are enough to translate or to write the tree,
and 321 to write the predicate or to apply it to any record. -/
theorem search_bounded :
    (∀ q e, parse q = .ok e → e.comparisons.length ≤ 256
      ∧ (∀ path ∈ e.shape.paths,
        path.countP Shape.Node.isNegation ≤ 64 ∧ path.countP Shape.Node.isJoint ≤ 255)
      ∧ (∀ s, e.shape.foldWithin (Expr.translation s) 320 = some (translate s e))
      ∧ e.shape.foldWithin Expr.rendering 320 = some e.render)
    ∧ ∀ s q p, search s q = .ok (some p) →
      (∀ path ∈ p.shape.paths,
        path.countP Shape.Node.isNegation + path.countP Shape.Node.isJoint ≤ 320)
      ∧ (∀ record, p.shape.foldWithin (Predicate.application record) 321 = some (p.holds record))
      ∧ p.shape.foldWithin Predicate.rendering 321 = some p.render := by
  have htree : ∀ {q e}, parse q = .ok e → e.comparisons.length ≤ 256 ∧ ∀ path ∈ e.shape.paths,
      path.countP Shape.Node.isNegation ≤ 64 ∧ path.countP Shape.Node.isJoint ≤ 255 := by
    intro q e h
    obtain ⟨hterms, hnegations, hjoints⟩ := bounds_of_parse h
    exact ⟨hterms,
      fun path hpath => ⟨hnegations path hpath, Nat.le_of_lt_succ (hjoints path hpath)⟩⟩
  constructor
  · intro q e h
    obtain ⟨hterms, hcounts⟩ := htree h
    have hpaths : e.shape.PathsWithin 320 := by
      intro path hpath
      have := hcounts path hpath
      rw [Shape.length_of_mem_paths hpath]
      omega
    exact ⟨hterms, hcounts,
      fun s => Shape.foldWithin_eq_some_iff.mpr ⟨(e.fold_translation s).symm, hpaths⟩,
      Shape.foldWithin_eq_some_iff.mpr ⟨e.fold_rendering.symm, hpaths⟩⟩
  · intro s q p h
    obtain ⟨e, he, hmeans⟩ := search_eq_some_iff.mp h
    have hcounts : ∀ path ∈ p.shape.paths,
        path.countP Shape.Node.isNegation + path.countP Shape.Node.isJoint ≤ 320 := by
      intro path hpath
      obtain ⟨path', hpath', hjoints, hnegations⟩ := hmeans.follows path hpath
      have := (htree he).2 path' hpath'
      omega
    have hpaths : p.shape.PathsWithin 321 := by
      intro path hpath
      have := hcounts path hpath
      rw [Shape.length_of_mem_paths hpath]
      omega
    exact ⟨hcounts,
      fun record => Shape.foldWithin_eq_some_iff.mpr ⟨(p.fold_application record).symm, hpaths⟩,
      Shape.foldWithin_eq_some_iff.mpr ⟨p.fold_rendering.symm, hpaths⟩⟩

/-- A tree of two comparisons under a negation. The empty list adds a negation to the predicate. -/
theorem search_bounded_list :
    let s : Schema :=
      ⟨Registry.empty.withModel "payment" ⟨[.plain "amount" .number]⟩, "payment", .standard,
      by decide +kernel, by decide +kernel⟩
    let amount : FieldRef := ⟨["amount"], .number⟩
    let e : Expr := .not (.logical .or
      (.comparison ⟨⟨["amount"], 5⟩, .equal, .literal ⟨.int 1, 14⟩, 5⟩)
      (.comparison ⟨⟨["amount"], 19⟩, .notIn, .list [] 33, 19⟩)) 0
    let p : Predicate := .not (.or (.compare amount .equal (.scalar (.int 1))) (.not .nothing))
    let q := "not (amount = 1 or amount not in [])"
    parse q = .ok e ∧ search s q = .ok (some p)
      ∧ e.comparisons.length ≤ 256 ∧ e.shape.foldWithin (Expr.translation s) 320 = some (.ok p)
      ∧ [.negation (), .joint .or, .negation (), .leaf .nothing] ∈ p.shape.paths
      ∧ (∀ path ∈ p.shape.paths,
        path.countP Shape.Node.isNegation + path.countP Shape.Node.isJoint ≤ 320)
      ∧ p.shape.foldWithin (Predicate.application (.object [("amount", .number (.int 2))])) 321
        = some false := by
  intro s amount e p q
  have hparse : parse q = .ok e := by decide +kernel
  have hsearch : search s q = .ok (some p) := by decide +kernel
  have htranslate : translate s e = .ok p := rfl
  obtain ⟨hterms, -, htranslation, -⟩ := search_bounded.1 q e hparse
  obtain ⟨hcounts, happlication, -⟩ := search_bounded.2 s q p hsearch
  exact ⟨hparse, hsearch, hterms, htranslate ▸ htranslation s, by decide, hcounts, happlication _⟩

end RecordQuery
