import RecordQuery.Proofs.Query.Lexemes

/-!
# How deep the tree of a query is

The reader counts two things only: how many parentheses and negations are open, and how many
comparisons have begun. Neither is the depth of the tree. A parenthesis has no node, and a chain
of `n` operands without any parenthesis is a tree whose leftmost path has `n - 1` nodes. So the
two counters bound different nodes of a path from the root to a leaf. The negations on it were all
open at its leaf, so there are at most `nestingLimit` of them (`Grammar.Derives.negationsWithin`).
And every conjunction or disjunction on it has a comparison beside the path, so these are fewer
than the comparisons (`Shape.countP_isJoint_lt`).

Paths are a matter of the `Shape` of a tree, which expressions and predicates have alike. A
recursion over a shape has as many calls open at a time as a path has nodes. `Shape.foldWithin` is
a recursion that gives up when it would need more calls than it may have, and it has a result
exactly when no path is longer (`Shape.foldWithin_eq_some_iff`).
-/

namespace RecordQuery

/-! ## Shapes -/

/-- **A tree of negations and joints of two**, with a label at every node. -/
inductive Shape (J N L : Type) where
  /-- A leaf. -/
  | leaf (l : L)
  /-- A node with one part. -/
  | negation (n : N) (operand : Shape J N L)
  /-- A node with two parts. -/
  | joint (j : J) (left right : Shape J N L)
  deriving DecidableEq

namespace Shape

/-- **A node on a path.** -/
inductive Node (J N L : Type) where
  /-- The leaf at its end. -/
  | leaf (l : L)
  /-- A node with one part. -/
  | negation (n : N)
  /-- A node with two parts. -/
  | joint (j : J)
  deriving DecidableEq

/-- Whether a node has one part. -/
def Node.isNegation {J N L : Type} : Node J N L → Bool
  | .negation _ => true
  | _ => false

/-- Whether a node has two parts. -/
def Node.isJoint {J N L : Type} : Node J N L → Bool
  | .joint _ => true
  | _ => false

section

variable {J N L : Type}

/-- **The paths from the root to the leaves**, from left to right. -/
def paths : Shape J N L → List (List (Node J N L))
  | .leaf l => [[.leaf l]]
  | .negation n operand => operand.paths.map (.negation n :: ·)
  | .joint j left right => (left.paths ++ right.paths).map (.joint j :: ·)

/-- The leaves from left to right. -/
def leaves : Shape J N L → List L
  | .leaf l => [l]
  | .negation _ operand => operand.leaves
  | .joint _ left right => left.leaves ++ right.leaves

variable {t left right operand : Shape J N L} {path : List (Node J N L)} {j : J} {n : N} {l : L}

theorem mem_paths_leaf : path ∈ (Shape.leaf l : Shape J N L).paths ↔ path = [.leaf l] :=
  List.mem_singleton

theorem mem_paths_negation : path ∈ (Shape.negation n operand).paths
    ↔ ∃ rest, rest ∈ operand.paths ∧ path = .negation n :: rest := by
  simp only [paths, List.mem_map, eq_comm]

theorem mem_paths_joint : path ∈ (Shape.joint j left right).paths
    ↔ ∃ rest, (rest ∈ left.paths ∨ rest ∈ right.paths) ∧ path = .joint j :: rest := by
  simp only [paths, List.mem_map, List.mem_append, eq_comm]

theorem leaves_length_pos (t : Shape J N L) : 0 < t.leaves.length := by
  induction t with
  | leaf l => exact Nat.one_pos
  | negation n operand ih => exact ih
  | joint j left right ihl _ =>
    rw [leaves, List.length_append]
    exact Nat.add_pos_left ihl _

/-- **Beside every joint of a path stands a leaf** that is not on the path. -/
theorem countP_isJoint_lt (h : path ∈ t.paths) : path.countP Node.isJoint < t.leaves.length := by
  induction t generalizing path with
  | leaf l =>
    obtain rfl := mem_paths_leaf.mp h
    exact Nat.one_pos
  | negation n operand ih =>
    obtain ⟨rest, hrest, rfl⟩ := mem_paths_negation.mp h
    rw [leaves, List.countP_cons_of_neg Bool.false_ne_true]
    exact ih hrest
  | joint j left right ihl ihr =>
    obtain ⟨rest, hrest, rfl⟩ := mem_paths_joint.mp h
    have hleft := left.leaves_length_pos
    have hright := right.leaves_length_pos
    rw [leaves, List.length_append, List.countP_cons_of_pos rfl]
    rcases hrest with hrest | hrest
    · have := ihl hrest
      omega
    · have := ihr hrest
      omega

/-- A path has one leaf. -/
theorem length_of_mem_paths (h : path ∈ t.paths) :
    path.length = path.countP Node.isJoint + path.countP Node.isNegation + 1 := by
  induction t generalizing path with
  | leaf l =>
    obtain rfl := mem_paths_leaf.mp h
    rfl
  | negation n operand ih =>
    obtain ⟨rest, hrest, rfl⟩ := mem_paths_negation.mp h
    rw [List.length_cons, ih hrest, List.countP_cons_of_neg Bool.false_ne_true,
      List.countP_cons_of_pos rfl]
    omega
  | joint j left right ihl ihr =>
    obtain ⟨rest, hrest, rfl⟩ := mem_paths_joint.mp h
    rw [List.length_cons, hrest.elim ihl ihr, List.countP_cons_of_pos rfl,
      List.countP_cons_of_neg Bool.false_ne_true]
    omega

/-! ## Recursion -/

/-- **What a recursion makes of every node** and of what it has made of the node's parts. -/
structure Cases (J N L α : Type) where
  /-- Of a leaf. -/
  leaf : L → α
  /-- Of a node with one part. -/
  negation : N → α → α
  /-- Of a node with two parts. -/
  joint : J → α → α → α

variable {α : Type} {f : Cases J N L α}

/-- **A recursion.** -/
def fold (f : Cases J N L α) : Shape J N L → α
  | .leaf l => f.leaf l
  | .negation n operand => f.negation n (operand.fold f)
  | .joint j left right => f.joint j (left.fold f) (right.fold f)

/-- **The recursion with only so many calls open at a time**; it has no result where it needs
more. -/
def foldWithin (f : Cases J N L α) : (calls : Nat) → Shape J N L → Option α
  | 0, _ => none
  | _ + 1, .leaf l => some (f.leaf l)
  | calls + 1, .negation n operand => (foldWithin f calls operand).map (f.negation n)
  | calls + 1, .joint j left right =>
    (foldWithin f calls left).bind fun l => (foldWithin f calls right).map (f.joint j l)

/-- **Whether no path has more nodes** than the number says. -/
def PathsWithin (calls : Nat) (t : Shape J N L) : Prop := ∀ path ∈ t.paths, path.length ≤ calls

variable {calls : Nat}

theorem pathsWithin_leaf : (Shape.leaf l : Shape J N L).PathsWithin (calls + 1) := by
  intro path hpath
  obtain rfl := mem_paths_leaf.mp hpath
  exact Nat.le_add_left 1 calls

theorem pathsWithin_negation :
    (Shape.negation n operand).PathsWithin (calls + 1) ↔ operand.PathsWithin calls := by
  simp only [PathsWithin, paths, List.forall_mem_map, List.length_cons, Nat.add_le_add_iff_right]

theorem pathsWithin_joint :
    (Shape.joint j left right).PathsWithin (calls + 1)
      ↔ left.PathsWithin calls ∧ right.PathsWithin calls := by
  simp only [PathsWithin, paths, List.forall_mem_map, List.forall_mem_append, List.length_cons,
    Nat.add_le_add_iff_right]

/-- Every shape has a path, and every path a node. -/
theorem not_pathsWithin_zero (t : Shape J N L) : ¬ t.PathsWithin 0 := by
  have hexists : ∀ t : Shape J N L, ∃ path, path ∈ t.paths := by
    intro t
    induction t with
    | leaf l => exact ⟨_, mem_paths_leaf.mpr rfl⟩
    | negation n operand ih =>
      obtain ⟨path, hpath⟩ := ih
      exact ⟨_, mem_paths_negation.mpr ⟨path, hpath, rfl⟩⟩
    | joint j left right ihl _ =>
      obtain ⟨path, hpath⟩ := ihl
      exact ⟨_, mem_paths_joint.mpr ⟨path, Or.inl hpath, rfl⟩⟩
  intro h
  obtain ⟨path, hpath⟩ := hexists t
  have := h path hpath
  have := length_of_mem_paths hpath
  omega

/-- **A recursion needs as many calls as the longest path has nodes**, and with these it gets its
value. -/
theorem foldWithin_eq_some_iff {a : α} :
    t.foldWithin f calls = some a ↔ a = t.fold f ∧ t.PathsWithin calls := by
  induction calls generalizing t a with
  | zero => exact ⟨nofun, fun ⟨_, hpaths⟩ => absurd hpaths t.not_pathsWithin_zero⟩
  | succ calls ih =>
    cases t with
    | leaf l =>
      rw [foldWithin, Option.some.injEq]
      exact ⟨fun h => ⟨h.symm, pathsWithin_leaf⟩, fun h => h.1.symm⟩
    | negation n operand =>
      rw [foldWithin, Option.map_eq_some_iff, pathsWithin_negation]
      constructor
      · rintro ⟨x, hx, rfl⟩
        obtain ⟨rfl, hpaths⟩ := ih.mp hx
        exact ⟨rfl, hpaths⟩
      · rintro ⟨rfl, hpaths⟩
        exact ⟨_, ih.mpr ⟨rfl, hpaths⟩, rfl⟩
    | joint j left right =>
      simp only [foldWithin, Option.bind_eq_some_iff, Option.map_eq_some_iff, pathsWithin_joint]
      constructor
      · rintro ⟨l, hl, r, hr, rfl⟩
        obtain ⟨rfl, hleft⟩ := ih.mp hl
        obtain ⟨rfl, hright⟩ := ih.mp hr
        exact ⟨rfl, hleft, hright⟩
      · rintro ⟨rfl, hleft, hright⟩
        exact ⟨_, ih.mpr ⟨rfl, hleft⟩, _, ih.mpr ⟨rfl, hright⟩, rfl⟩

/-! ## Negations -/

/-- **Whether no path has more negations** than the number says. -/
def NegationsWithin (k : Nat) (t : Shape J N L) : Prop :=
  ∀ path ∈ t.paths, path.countP Node.isNegation ≤ k

variable {k : Nat}

theorem negationsWithin_leaf (k : Nat) : (Shape.leaf l : Shape J N L).NegationsWithin k := by
  intro path hpath
  obtain rfl := mem_paths_leaf.mp hpath
  exact Nat.zero_le k

theorem NegationsWithin.negation (h : operand.NegationsWithin k) :
    (Shape.negation n operand).NegationsWithin (k + 1) := by
  intro path hpath
  obtain ⟨rest, hrest, rfl⟩ := mem_paths_negation.mp hpath
  rw [List.countP_cons_of_pos rfl]
  exact Nat.succ_le_succ (h rest hrest)

theorem NegationsWithin.joint (hl : left.NegationsWithin k) (hr : right.NegationsWithin k) :
    (Shape.joint j left right).NegationsWithin k := by
  intro path hpath
  obtain ⟨rest, hrest, rfl⟩ := mem_paths_joint.mp hpath
  rw [List.countP_cons_of_neg Bool.false_ne_true]
  exact hrest.elim (hl rest) (hr rest)

end

end Shape

/-! ## Expressions -/

/-- **The shape of an expression**, with the connectives, the offsets of the negations and the
comparisons. -/
def Expr.shape : Expr → Shape Connective Nat Comparison
  | .logical op left right => .joint op left.shape right.shape
  | .not operand offset => .negation offset operand.shape
  | .comparison c => .leaf c

/-- The leaves of an expression are its comparisons. -/
theorem Expr.leaves_shape (e : Expr) : e.shape.leaves = e.comparisons := by
  induction e with
  | logical op left right ihl ihr => rw [shape, Shape.leaves, ihl, ihr, comparisons]
  | not operand offset ih => exact ih
  | comparison c => rfl

namespace Grammar

/-- The tree to the left of a phrase has no path with more than `m` negations. -/
def Phrase.NegationsWithin (m : Nat) : Phrase → Prop
  | .links _ left => left.shape.NegationsWithin m
  | _ => True

/-- **The negations on a path are open at its leaf**, so the nesting of a phrase bounds
them. The induction carries the tree to the left of a chain's links, since the tree of the
chain is built around it. -/
theorem Derives.negationsWithin {p : Phrase} {n k m : Nat} {ts us : List Token} {e : Expr}
    (h : Derives p n k ts e us) (hn : n ≤ m) (hp : p.NegationsWithin m) :
    e.shape.NegationsWithin m := by
  have hoperand : ∀ (op : Connective) (m : Nat), (Phrase.operandOf op).NegationsWithin m :=
    fun op m => by cases op <;> trivial
  induction h generalizing m with
  | comparison _ => exact Shape.negationsWithin_leaf m
  | not _ _ ih =>
    obtain ⟨m, rfl⟩ : ∃ m', m = m' + 1 := ⟨m - 1, by omega⟩
    exact (ih (Nat.le_of_succ_le_succ hn) trivial).negation
  | group _ _ _ ih => exact ih (by omega) trivial
  | chain _ _ ih ihs =>
    obtain ⟨hm, hn⟩ := Nat.max_le.mp hn
    exact ihs hn (ih hm (hoperand _ m))
  | done => exact hp
  | link _ _ _ ih ihs =>
    obtain ⟨hm, hn⟩ := Nat.max_le.mp hn
    exact ihs hn (hp.joint (ih hm (hoperand _ m)))

end Grammar

/-- **The tree of a query is bounded**, however long the query is. -/
theorem bounds_of_parse {q : String} {e : Expr} (h : parse q = .ok e) :
    e.comparisons.length ≤ termLimit ∧ e.shape.NegationsWithin nestingLimit
      ∧ ∀ path ∈ e.shape.paths, path.countP Shape.Node.isJoint < termLimit := by
  obtain ⟨ts, n, -, ⟨stop, -, hd⟩, hn, hterms, -⟩ := exists_query_of_parse h
  refine ⟨hterms, hd.negationsWithin hn trivial, fun path hpath => ?_⟩
  have hlt := Shape.countP_isJoint_lt hpath
  rw [e.leaves_shape] at hlt
  exact hlt.trans_le hterms

/-- How an expression is written, as a recursion. -/
def Expr.rendering : Shape.Cases Connective Nat Comparison String where
  leaf c := c.render
  negation _ operand := "not " ++ operand
  joint op left right := "(" ++ left ++ " " ++ op.keyword ++ " " ++ right ++ ")"

theorem Expr.fold_rendering (e : Expr) : e.shape.fold rendering = e.render := by
  induction e with
  | logical op left right ihl ihr => rw [shape, Shape.fold, ihl, ihr, render]; rfl
  | not operand offset ih => rw [shape, Shape.fold, ih, render]; rfl
  | comparison c => rfl

end RecordQuery
