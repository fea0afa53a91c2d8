import RecordQuery.Predicate.Evaluation

/-!
# How arrays nest does not matter

An array in a record stands for all its items, however deeply they nest. So it makes no difference
whether a value stands alone or in an array of its own, nor whether some items of an array stand
in an inner array or among the others. Two values that differ in nothing else, anywhere inside,
are **alike** (`Json.Alike`), and no predicate tells alike records apart (`holds_of_alike`).

The proof goes through a normal form. `Json.leaves` lists what a value stands for, with the arrays
inside brought into the same form, and alike values are those with the same leaves (`alike_iff`).
A record can be replaced by the array of its leaves: at every path that one has the normal forms
of the values of the other (`valuesAt_leaves`), and a value and its normal form are the same to
every comparison, because no comparison looks into an object.
-/

namespace RecordQuery

namespace Json

/-! ## Alike values -/

/-- **Values that differ only in how their arrays nest**: the least congruence in which an array
of one item is like the item, and an array with an inner one is like the array with the items of
the inner one in its place. -/
inductive Alike : Json → Json → Prop
  | refl (v : Json) : Alike v v
  | symm {v w : Json} (h : Alike v w) : Alike w v
  | trans {u v w : Json} (h : Alike u v) (h' : Alike v w) : Alike u w
  | item (before after : List Json) {v w : Json} (h : Alike v w) :
      Alike (.array (before ++ v :: after)) (.array (before ++ w :: after))
  | member (before after : List (String × Json)) (name : String) {v w : Json} (h : Alike v w) :
      Alike (.object (before ++ (name, v) :: after)) (.object (before ++ (name, w) :: after))
  | single (v : Json) : Alike (.array [v]) v
  | splice (before items after : List Json) :
      Alike (.array (before ++ .array items :: after)) (.array (before ++ items ++ after))

/-! ## The normal form -/

mutual
/-- **What a value stands for, in normal form**: no array among the leaves, and in an object every
member the array of its leaves. -/
def leaves : Json → List Json
  | .array items => leavesOfItems items
  | .object members => [.object (settledMembers members)]
  | v => [v]

/-- The leaves of the items of an array. -/
def leavesOfItems : List Json → List Json
  | [] => []
  | v :: vs => leaves v ++ leavesOfItems vs

/-- The members of an object, each the array of its leaves. -/
def settledMembers : List (String × Json) → List (String × Json)
  | [] => []
  | (k, v) :: ms => (k, .array (leaves v)) :: settledMembers ms
end

/-- The normal form of a value that is no array. -/
def settle : Json → Json
  | .object members => .object (settledMembers members)
  | v => v

theorem leavesOfItems_append (vs ws : List Json) :
    leavesOfItems (vs ++ ws) = leavesOfItems vs ++ leavesOfItems ws := by
  induction vs with
  | nil => rfl
  | cons v vs ih => simp only [List.cons_append, leavesOfItems, ih, List.append_assoc]

theorem settledMembers_append (ms ns : List (String × Json)) :
    settledMembers (ms ++ ns) = settledMembers ms ++ settledMembers ns := by
  induction ms with
  | nil => rfl
  | cons m ms ih => simp only [List.cons_append, settledMembers, ih]

/-- Alike values have the same leaves. -/
theorem Alike.leaves_eq {v w : Json} (h : Alike v w) : v.leaves = w.leaves := by
  induction h with
  | refl v => rfl
  | symm _ ih => exact ih.symm
  | trans _ _ ih ih' => exact ih.trans ih'
  | item before after _ ih => simp only [leaves, leavesOfItems_append, leavesOfItems, ih]
  | member before after name _ ih => simp only [leaves, settledMembers_append, settledMembers, ih]
  | single v => simp only [leaves, leavesOfItems, List.append_nil]
  | splice before items after =>
    simp only [leaves, leavesOfItems_append, leavesOfItems, List.append_assoc]

mutual
/-- **A value is like the array of its leaves.** -/
theorem alike_leaves : (v : Json) → Alike v (.array v.leaves)
  | .array items => alike_leavesOfItems [] items
  | .object members => (alike_settledMembers [] members).trans (.symm (.single _))
  | .null | .bool _ | .number _ | .string _ => .symm (.single _)

/-- The items behind some others can be replaced by their leaves. -/
theorem alike_leavesOfItems (before : List Json) :
    (items : List Json) → Alike (.array (before ++ items)) (.array (before ++ leavesOfItems items))
  | [] => .refl _
  | v :: vs => by
    have hitem : Alike (.array (before ++ v :: vs)) (.array (before ++ .array v.leaves :: vs)) :=
      .item before vs (alike_leaves v)
    have hrest := alike_leavesOfItems (before ++ v.leaves) vs
    rw [List.append_assoc _ _ (leavesOfItems vs)] at hrest
    exact (hitem.trans (.splice before v.leaves vs)).trans hrest

/-- The members behind some others can be replaced by the arrays of their leaves. -/
theorem alike_settledMembers (before : List (String × Json)) :
    (members : List (String × Json)) →
      Alike (.object (before ++ members)) (.object (before ++ settledMembers members))
  | [] => .refl _
  | (name, v) :: ms => by
    have hmember : Alike (.object (before ++ (name, v) :: ms))
        (.object (before ++ (name, .array v.leaves) :: ms)) :=
        .member before ms name (alike_leaves v)
    have hrest := alike_settledMembers (before ++ [(name, .array v.leaves)]) ms
    rw [List.append_assoc, List.append_assoc] at hrest
    exact hmember.trans hrest
end

/-- **Alike values are those with the same leaves.** -/
theorem alike_iff {v w : Json} : Alike v w ↔ v.leaves = w.leaves := by
  constructor
  · exact Alike.leaves_eq
  · intro h
    exact (h ▸ alike_leaves v).trans (alike_leaves w).symm

/-- The empty array stands for no value, and null for one. -/
example : ¬ Alike (.array []) .null := fun h => List.cons_ne_nil _ _ (alike_iff.mp h).symm

end Json

open Json

/-! ## The values of a record in normal form -/

theorem flattenItems_append (vs ws : List Json) :
    flattenItems (vs ++ ws) = flattenItems vs ++ flattenItems ws := by
  induction vs with
  | nil => rfl
  | cons v vs ih => simp only [List.cons_append, flattenItems, ih, List.append_assoc]

mutual
/-- **The leaves of a value are the normal forms of the values that it stands for.** -/
theorem leaves_eq_map : (v : Json) → v.leaves = (flatten v).map settle
  | .array items => leavesOfItems_eq_map items
  | .object _ | .null | .bool _ | .number _ | .string _ => rfl

theorem leavesOfItems_eq_map : (vs : List Json) → leavesOfItems vs = (flattenItems vs).map settle
  | [] => rfl
  | v :: vs => by
    rw [leavesOfItems, flattenItems, List.map_append, leaves_eq_map v, leavesOfItems_eq_map vs]
end

mutual
/-- There is no array among the leaves. -/
theorem flattenItems_leaves : (v : Json) → flattenItems v.leaves = v.leaves
  | .array items => flattenItems_leavesOfItems items
  | .object _ | .null | .bool _ | .number _ | .string _ => rfl

theorem flattenItems_leavesOfItems :
    (vs : List Json) → flattenItems (leavesOfItems vs) = leavesOfItems vs
  | [] => rfl
  | v :: vs => by
    rw [leavesOfItems, flattenItems_append, flattenItems_leaves v, flattenItems_leavesOfItems vs]
end

/-- An array of leaves stands for the normal forms of what the value itself stands for. -/
theorem flatten_leaves (v : Json) : flatten (.array v.leaves) = (flatten v).map settle :=
  (flattenItems_leaves v).trans (leaves_eq_map v)

theorem lookup_settledMembers (name : String) (members : List (String × Json)) :
    (settledMembers members).lookup name = (members.lookup name).map fun v => .array v.leaves := by
  induction members with
  | nil => rfl
  | cons m ms ih =>
    obtain ⟨k, v⟩ := m
    rw [settledMembers, List.lookup_cons, List.lookup_cons]
    cases name == k with
    | true => rfl
    | false => exact ih

/-- **Behind a name in a normal form are the normal forms of the values behind the name.** -/
theorem follow_settle (name : String) (v : Json) :
    follow name (settle v) = (follow name v).map settle := by
  cases v with
  | object members =>
    unfold follow settle member?
    simp only [lookup_settledMembers]
    cases members.lookup name with
    | none => rfl
    | some v => exact flatten_leaves v
  | _ => rfl

/-- **The array of the leaves of a record has the normal forms of its values**, at every path. -/
theorem valuesAt_leaves (record : Json) (path : List String) :
    valuesAt (.array record.leaves) path = (valuesAt record path).map settle := by
  unfold valuesAt
  rw [flatten_leaves]
  generalize flatten record = vs
  induction path generalizing vs with
  | nil => rfl
  | cons name path ih =>
    have hstep : (vs.map settle).flatMap (follow name) = (vs.flatMap (follow name)).map settle := by
      rw [List.flatMap_map, List.map_flatMap]
      simp only [follow_settle]
    rw [List.foldl_cons, List.foldl_cons, hstep, ih]

/-! ## Predicates -/

/-- No comparison looks into an object. -/
theorem stands_settle (v : Json) (op : Operator) (operand : Scalar) :
    stands (settle v) op operand = stands v op operand := by
  cases v with
  | object members => cases operand <;> rfl
  | _ => rfl

theorem toScalar?_settle (type : FieldType) (v : Json) :
    toScalar? type (settle v) = toScalar? type v := by
  cases v with
  | object members => cases type <;> rfl
  | _ => rfl

theorem isNull_settle (v : Json) : (settle v).isNull = v.isNull := by
  cases v <;> rfl

theorem anyStands_leaves (record : Json) (vs : List Json) (op : Operator) (t : Target) :
    anyStands (.array record.leaves) (vs.map settle) op t = anyStands record vs op t := by
  cases t with
  | scalar v => simp only [anyStands, List.any_map, Function.comp_def, stands_settle]
  | list operands => simp only [anyStands, List.any_map, Function.comp_def, stands_settle]
  | field f =>
    simp only [anyStands, valuesAt_leaves, List.filterMap_map, Function.comp_def,
      toScalar?_settle, List.any_map, stands_settle]

/-- **A predicate matches a record exactly when it matches the array of its leaves.** -/
theorem Predicate.holds_leaves (record : Json) (p : Predicate) :
    p.holds (.array record.leaves) = p.holds record := by
  induction p with
  | compare f op t => simp only [holds, comparisonHolds, valuesAt_leaves, anyStands_leaves]
  | isNull f negated =>
    simp only [holds, valuesAt_leaves, List.isEmpty_map, List.any_map, Function.comp_def,
      isNull_settle]
  | nothing => rfl
  | and left right ihl ihr => simp only [holds, ihl, ihr]
  | or left right ihl ihr => simp only [holds, ihl, ihr]
  | not operand ih => simp only [holds, ih]

/-- **No predicate tells alike records apart**, whatever its shape. -/
theorem holds_of_alike {record record' : Json} (h : record.Alike record') (p : Predicate) :
    p.holds record = true ↔ p.holds record' = true := by
  rw [← p.holds_leaves record, ← p.holds_leaves record', h.leaves_eq]

/-- A post in an array of arrays, with its tags and its author in arrays of arrays, is found when
the plain post is: one of the tags is the name of the author, and there is no note. -/
theorem holds_of_alike_post :
    let name : FieldRef := ⟨["author", "name"], .text⟩
    let p : Predicate :=
      .and (.compare ⟨["tags"], .text⟩ .equal (.field name)) (.isNull ⟨["note"], .text⟩ false)
    let post : Json := .object [("author", .object [("name", .string "Ann")]),
      ("tags", .array [.string "new", .string "Ann"])]
    let nested : Json := .array [.array [], .array [.object [
      ("author", .array [.array [.object [("name", .array [.string "Ann"])]]]),
      ("tags", .array [.array [.string "new"], .array [.array [.string "Ann"]]])]]]
    nested.Alike post ∧ p.holds post = true ∧ p.holds nested = true := by
  intro name p post nested
  have halike : nested.Alike post := alike_iff.mpr rfl
  have hpost : p.holds post = true := by decide +kernel
  exact ⟨halike, hpost, (holds_of_alike halike p).mpr hpost⟩

end RecordQuery
