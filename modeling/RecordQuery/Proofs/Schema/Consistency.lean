import RecordQuery.Schema.Consistency

/-!
# What a consistent registry promises

`Registry.problem?` looks for the first thing that is wrong. When it finds nothing, every field
of every model is sound (`FieldDef.Sound`) and no model has two fields of one name, and nothing
less than that is needed (`problem?_eq_none_iff`). What is proved about schemas rests on these
facts: names can be joined with points and cut apart again, relations lead to models, and a
default field has values.
-/

namespace RecordQuery

/-- A name has a value exactly when the map lists it with that value. -/
theorem NameMap.get?_eq_some_iff {α : Type} {m : NameMap α} {name : String} {value : α} :
    m.get? name = some value ↔ (name, value) ∈ m.entries := by
  obtain ⟨entries, hincreasing⟩ := m
  show entries.lookup name = some value ↔ (name, value) ∈ entries
  induction entries with
  | nil => simp
  | cons head rest ih =>
    obtain ⟨k, v⟩ := head
    obtain ⟨hk, hrest⟩ := List.pairwise_cons.mp hincreasing
    rw [List.lookup_cons, List.mem_cons]
    by_cases hname : name = k
    · subst hname
      -- the names after the first one are greater
      have hnot : (name, value) ∉ rest := fun h => String.lt_irrefl name (hk _ h)
      simp [hnot, eq_comm (a := v)]
    · have hbeq : (name == k) = false := beq_eq_false_iff_ne.mpr hname
      simp [hbeq, hname, ih hrest]

/-- **What a consistent registry promises of a field.** -/
structure FieldDef.Sound (r : Registry) (f : FieldDef) : Prop where
  /-- The name is not empty. -/
  name_ne_empty : f.name ≠ ""
  /-- The name has no point. -/
  no_point : '.' ∉ f.name.toList
  /-- A relation leads to a model, and its default field is a field of that model with values. -/
  leads : f.type = .relation → ∃ target m, f.model = some target ∧ r.model? target = some m
    ∧ ∀ name, f.defaultField = some name → ∃ d, m.field? name = some d ∧ d.type ≠ .relation
  /-- Another field names neither a model nor a default field. -/
  plain : f.type ≠ .relation → f.model = none ∧ f.defaultField = none
  /-- A choice lists a value. -/
  listed : f.type = .choice → f.suggestions ≠ []

theorem validSegment_eq_true_iff {name : String} :
    validSegment name = true ↔ name ≠ "" ∧ '.' ∉ name.toList := by
  simp [validSegment]

theorem defaultProblem?_eq_none_iff {path target name : String} {m : Model} :
    defaultProblem? path target name m = none
      ↔ ∃ d, m.field? name = some d ∧ d.type ≠ .relation := by
  unfold defaultProblem?
  cases m.field? name with
  | none => simp
  | some d => simp

theorem relationProblem?_eq_none_iff {r : Registry} {path : String} {f : FieldDef} :
    relationProblem? r path f = none
      ↔ ∃ target m, f.model = some target ∧ r.model? target = some m
        ∧ ∀ name, f.defaultField = some name →
          ∃ d, m.field? name = some d ∧ d.type ≠ .relation := by
  unfold relationProblem?
  cases f.model with
  | none => simp
  | some target =>
    cases hm : r.model? target with
    | none => simp [hm]
    | some m =>
      cases f.defaultField with
      | none => simp [hm]
      | some name => simp [hm, defaultProblem?_eq_none_iff]

theorem valueProblem?_eq_none_iff {path : String} {f : FieldDef} :
    valueProblem? path f = none
      ↔ (f.model = none ∧ f.defaultField = none) ∧ (f.type = .choice → f.suggestions ≠ []) := by
  unfold valueProblem?
  cases f.model with
  | some target => simp
  | none =>
    cases f.defaultField with
    | some name => simp
    | none => simp

/-- **Nothing is wrong with a field** when it is sound and its name is new. -/
theorem fieldProblem?_eq_none_iff {r : Registry} {id : String} {seen : List String} {f : FieldDef} :
    fieldProblem? r id seen f = none ↔ f.Sound r ∧ f.name ∉ seen := by
  unfold fieldProblem?
  by_cases hvalid : validSegment f.name = true
  · obtain ⟨hempty, hpoint⟩ := validSegment_eq_true_iff.mp hvalid
    by_cases hseen : f.name ∈ seen
    · simp [hvalid, hseen]
    · simp only [hvalid, Bool.not_true, Bool.false_eq_true, if_false, hseen, not_false_eq_true,
        and_true]
      by_cases ht : f.type = .relation
      · rw [if_pos ht, relationProblem?_eq_none_iff]
        constructor
        · exact fun h => ⟨hempty, hpoint, fun _ => h, fun hne => absurd ht hne, by simp [ht]⟩
        · exact fun h => h.leads ht
      · rw [if_neg ht, valueProblem?_eq_none_iff]
        constructor
        · exact fun h => ⟨hempty, hpoint, fun hr => absurd hr ht, fun _ => h.1, h.2⟩
        · exact fun h => ⟨h.plain ht, h.listed⟩
  · rw [Bool.not_eq_true] at hvalid
    simp only [hvalid, Bool.not_false, if_true, reduceCtorEq, false_iff, not_and]
    intro h
    have := validSegment_eq_true_iff.mpr ⟨h.name_ne_empty, h.no_point⟩
    simp [hvalid] at this

/-- **Nothing is wrong with the fields of a model** when all are sound and have different new
names. -/
theorem fieldsProblem?_eq_none_iff {r : Registry} {id : String} {seen : List String}
    {fs : List FieldDef} :
    fieldsProblem? r id seen fs = none
      ↔ (∀ f ∈ fs, f.Sound r) ∧ (fs.map FieldDef.name).Nodup ∧ ∀ f ∈ fs, f.name ∉ seen := by
  induction fs generalizing seen with
  | nil => simp [fieldsProblem?]
  | cons f fs ih =>
    unfold fieldsProblem?
    have hfield : fieldProblem? r id seen f = none ↔ f.Sound r ∧ f.name ∉ seen :=
      fieldProblem?_eq_none_iff
    cases hf : fieldProblem? r id seen f with
    | some cause =>
      rw [hf] at hfield
      simp only [reduceCtorEq, false_iff] at hfield ⊢
      exact fun h => hfield ⟨h.1 f List.mem_cons_self, h.2.2 f List.mem_cons_self⟩
    | none =>
      obtain ⟨hsound, hseen⟩ := hfield.mp hf
      show fieldsProblem? r id (f.name :: seen) fs = none ↔ _
      rw [ih]
      simp only [List.map_cons, List.nodup_cons, List.mem_cons, not_or]
      grind

/-- **A consistent registry** has sound fields only, and no model has two of one name. -/
theorem Registry.problem?_eq_none_iff {r : Registry} :
    r.problem? = none
      ↔ ∀ id m, r.model? id = some m →
        (∀ f ∈ m.fields, f.Sound r) ∧ (m.fields.map FieldDef.name).Nodup := by
  unfold Registry.problem? Registry.model?
  rw [List.findSome?_eq_none_iff]
  simp only [fieldsProblem?_eq_none_iff, NameMap.get?_eq_some_iff, Prod.forall, List.not_mem_nil,
    not_false_eq_true, implies_true, and_true]

end RecordQuery
