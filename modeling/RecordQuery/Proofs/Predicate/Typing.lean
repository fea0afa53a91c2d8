import RecordQuery.Predicate.Translation
import RecordQuery.Proofs.Schema.Resolution

/-!
# The types of comparisons

Which expressions have a predicate, and which predicate, said without the checks that
`translate` makes one after the other. A literal is a value of a field's type by the rules of
`Coerces`, a comparison fits its field by those of `Fits`, and `Means` gives every expression
that fits its predicate.

The translation is then described from both sides. It succeeds exactly on the expressions of which
every comparison is well typed (`exists_means_iff`), whatever the order of its checks, and what it
returns is the predicate that the expression means (`translate_eq_ok_iff`). Such a predicate is
well typed in turn (`Means.wellTyped`): it reads fields that the schema reaches, and compares each
one with values of its type.
-/

namespace RecordQuery

/-! ## Literals -/

/-- **What was typed for a choice**: a declared value, or else the first label with that text. -/
inductive Chooses (f : FieldDef) (input : String) : String → Prop
  | value (hg : ∃ g ∈ f.suggestions, g.value = input) : Chooses f input input
  | label {before after : List Suggestion} {g : Suggestion}
      (hvalue : ∀ g ∈ f.suggestions, g.value ≠ input)
      (hsplit : f.suggestions = before ++ g :: after)
      (hg : g.label = some input) (hfirst : ∀ h ∈ before, h.label ≠ some input) :
      Chooses f input g.value

/-- **A literal is a value of a field's type.** Numbers, dates and datetimes may be given as
texts, and a choice by a text or an integer. -/
inductive Coerces (F : Field) : LiteralValue → Scalar → Prop
  | int {n : Int} (ht : F.type = .number) : Coerces F (.int n) (.int n)
  | float {x : Binary64} (ht : F.type = .number) : Coerces F (.float x) (.float x)
  | number {t : String} {v : Scalar} (ht : F.type = .number) (hv : typedNumber? t = some v) :
      Coerces F (.string t) v
  | bool {b : Bool} (ht : F.type = .boolean) : Coerces F (.bool b) (.bool b)
  | text {t : String} (ht : F.type = .text) : Coerces F (.string t) (.text t)
  | choice {t v : String} (ht : F.type = .choice) (hv : Chooses F.definition t v) :
      Coerces F (.string t) (.text v)
  | digits {n : Int} {v : String} (ht : F.type = .choice)
      (hv : Chooses F.definition (String.ofList (intText n)) v) : Coerces F (.int n) (.text v)
  | date {t : String} {d : Date} (ht : F.type = .date) (hd : readDate? t.toList = some d) :
      Coerces F (.string t) (.date d)
  | datetime {t : String} {d : DateTime} (ht : F.type = .datetime)
      (hd : readDateTime? t.toList = some d) :
      Coerces F (.string t) (.datetime d)

/-- **A typed choice is found exactly when it is one.** -/
theorem choiceValue?_eq_some_iff {F : Field} {input v : String} :
    F.choiceValue? input = some v ↔ Chooses F.definition input v := by
  unfold Field.choiceValue?
  cases hfind : F.definition.suggestions.find? (·.value = input) with
  | some g =>
    have hg : g.value = input := by simpa using List.find?_some hfind
    have hmem : g ∈ F.definition.suggestions := List.mem_of_find?_eq_some hfind
    show some g.value = some v ↔ _
    rw [Option.some.injEq, hg]
    constructor
    · rintro rfl
      exact .value ⟨g, hmem, hg⟩
    · intro h
      cases h with
      | value _ => rfl
      | label hvalue _ _ _ => exact absurd hg (hvalue g hmem)
  | none =>
    have hvalue : ∀ g ∈ F.definition.suggestions, g.value ≠ input := by
      simpa using List.find?_eq_none.mp hfind
    show (F.definition.suggestions.find? (·.label = some input)).map (·.value) = some v ↔ _
    rw [Option.map_eq_some_iff]
    constructor
    · rintro ⟨g, hg, rfl⟩
      obtain ⟨hlabel, before, after, hsplit, hfirst⟩ := List.find?_eq_some_iff_append.mp hg
      exact .label hvalue hsplit (by simpa using hlabel) (by simpa using hfirst)
    · intro h
      cases h with
      | value hg =>
        obtain ⟨g, hmem, hg⟩ := hg
        exact absurd hg (hvalue g hmem)
      | label _ hsplit hg hfirst =>
        refine ⟨_, List.find?_eq_some_iff_append.mpr ⟨by simpa using hg, _, _, hsplit, ?_⟩, rfl⟩
        simpa using hfirst

theorem coerceChoice_eq_ok_iff {F : Field} {input : String} {v : Scalar} :
    coerceChoice F input = .ok v ↔ ∃ t, Chooses F.definition input t ∧ v = .text t := by
  unfold coerceChoice
  simp only [← choiceValue?_eq_some_iff]
  cases F.choiceValue? input with
  | none => simp
  | some t => simp [eq_comm]

/-- **A literal is coerced exactly when it is a value of the type.** -/
theorem coerce_eq_ok_iff {F : Field} {l : LiteralValue} {v : Scalar} :
    coerce F l = .ok v ↔ Coerces F l v := by
  constructor
  · intro h
    unfold coerce at h
    dsimp only at h
    split at h
    · exact Except.ok.inj h ▸ .int ‹_›
    · exact Except.ok.inj h ▸ .float ‹_›
    · split at h
      · rename_i hv
        exact Except.ok.inj h ▸ .number ‹_› hv
      · exact nomatch h
    · exact Except.ok.inj h ▸ .bool ‹_›
    · exact Except.ok.inj h ▸ .text ‹_›
    · obtain ⟨t, ht, rfl⟩ := coerceChoice_eq_ok_iff.mp h
      exact .choice ‹_› ht
    · obtain ⟨t, ht, rfl⟩ := coerceChoice_eq_ok_iff.mp h
      exact .digits ‹_› ht
    · split at h
      · rename_i hv
        obtain ⟨d, hd, rfl⟩ := Option.map_eq_some_iff.mp hv
        exact Except.ok.inj h ▸ .date ‹_› hd
      · exact nomatch h
    · split at h
      · rename_i hv
        obtain ⟨d, hd, rfl⟩ := Option.map_eq_some_iff.mp hv
        exact Except.ok.inj h ▸ .datetime ‹_› hd
      · exact nomatch h
    · exact nomatch h
    · exact nomatch h
  · intro h
    unfold coerce
    cases h with
    | int ht => rw [ht]
    | float ht => rw [ht]
    | number ht hv => rw [ht]; simp [hv]
    | bool ht => rw [ht]
    | text ht => rw [ht]
    | choice ht hv => rw [ht]; exact coerceChoice_eq_ok_iff.mpr ⟨_, hv, rfl⟩
    | digits ht hv => rw [ht]; exact coerceChoice_eq_ok_iff.mpr ⟨_, hv, rfl⟩
    | date ht hd => rw [ht]; simp [hd]
    | datetime ht hd => rw [ht]; simp [hd]

/-- Null is a value of no type. -/
theorem not_coerces_null {F : Field} {v : Scalar} : ¬ Coerces F .null v := nofun

theorem coerceAt_eq_ok_iff {F : Field} {l : Literal} {v : Scalar} :
    coerceAt F l = .ok v ↔ Coerces F l.value v := by
  rw [← coerce_eq_ok_iff]
  unfold coerceAt translationError
  cases coerce F l.value <;> simp

theorem coerceItem_eq_ok_iff {F : Field} {l : Literal} {v : Scalar} :
    coerceItem F l = .ok v ↔ Coerces F l.value v := by
  unfold coerceItem
  split
  · rename_i hnull
    rw [hnull]
    exact ⟨nofun, fun h => absurd h not_coerces_null⟩
  · exact coerceAt_eq_ok_iff

/-- **The items of a list are coerced one by one.** -/
theorem mapM_coerceItem_eq_ok_iff {F : Field} {items : List Literal} {vs : List Scalar} :
    items.mapM (coerceItem F) = .ok vs
      ↔ List.Forall₂ (fun l v => Coerces F l.value v) items vs := by
  induction items generalizing vs with
  | nil => cases vs <;> simp [pure, Except.pure]
  | cons l items ih =>
    have hl : ∀ v, coerceItem F l = .ok v ↔ Coerces F l.value v := fun v => coerceItem_eq_ok_iff
    rw [List.mapM_cons]
    cases hv : coerceItem F l with
    | error e =>
      have hnone : ∀ v, ¬ Coerces F l.value v := fun v h => by simp [(hl v).mpr h] at hv
      refine ⟨nofun, fun h => ?_⟩
      cases h with
      | cons h _ => exact absurd h (hnone _)
    | ok v =>
      have hv' : Coerces F l.value v := (hl v).mp hv
      have hv'' : ∀ w, Coerces F l.value w → w = v := fun w h =>
        Except.ok.inj (((hl w).mpr h).symm.trans hv)
      cases hvs : items.mapM (coerceItem F) with
      | error e =>
        refine ⟨nofun, fun h => ?_⟩
        cases h with
        | cons _ h => exact absurd (hvs.symm.trans (ih.mpr h)) (by simp)
      | ok ws =>
        show Except.ok (v :: ws) = .ok vs ↔ _
        rw [Except.ok.injEq]
        constructor
        · rintro rfl
          exact .cons hv' (ih.mp hvs)
        · intro h
          cases h with
          | cons h hs =>
            rw [hv'' _ h, Except.ok.inj (hvs.symm.trans (ih.mpr hs))]

/-- A list has values exactly when each of its items has one. -/
theorem exists_values_iff {F : Field} {items : List Literal} :
    (∃ vs, List.Forall₂ (fun l v => Coerces F l.value v) items vs)
      ↔ ∀ l ∈ items, ∃ v, Coerces F l.value v := by
  induction items with
  | nil => exact ⟨fun _ => nofun, fun _ => ⟨[], .nil⟩⟩
  | cons l items ih =>
    rw [List.forall_mem_cons, ← ih]
    constructor
    · rintro ⟨vs, h⟩
      cases h with
      | cons hv hvs => exact ⟨⟨_, hv⟩, _, hvs⟩
    · rintro ⟨⟨v, hv⟩, vs, hvs⟩
      exact ⟨v :: vs, .cons hv hvs⟩

/-- Every value of a list is the value of an item. -/
theorem exists_item_of_values {F : Field} {items : List Literal} {vs : List Scalar} {v : Scalar}
    (h : List.Forall₂ (fun l v => Coerces F l.value v) items vs) (hv : v ∈ vs) :
    ∃ l, Coerces F l v := by
  induction h with
  | nil => exact nomatch hv
  | cons hl _ ih =>
    rcases List.mem_cons.mp hv with rfl | hv
    · exact ⟨_, hl⟩
    · exact ih hv

/-! ## Comparisons -/

/-- **A comparison fits its field.** Null needs no operator of the type; everything else does. A
list needs an operator that takes one, and nothing else may stand after such an operator. -/
inductive Fits (s : Schema) (F : Field) (op : Operator) : Operand → Prop
  | null {offset : Nat} (hop : op = .equal ∨ op = .notEqual) :
      Fits s F op (.literal ⟨.null, offset⟩)
  | list {items : List Literal} {offset : Nat} (hop : op ∈ F.type.operators)
      (hin : op = .isIn ∨ op = .notIn)
      (hitems : ∀ l ∈ items, l.value ≠ .null ∧ ∃ v, Coerces F l.value v) :
      Fits s F op (.list items offset)
  | literal {l : Literal} {v : Scalar} (hnull : l.value ≠ .null) (hop : op ∈ F.type.operators)
      (hin : ¬ (op = .isIn ∨ op = .notIn)) (hv : Coerces F l.value v) : Fits s F op (.literal l)
  | name {p : NamePath} {G : Field} (hop : op ∈ F.type.operators)
      (hin : ¬ (op = .isIn ∨ op = .notIn))
      (hG : s.resolve p.segments = .ok G)
      (ht : F.type = G.type ∨ F.type = .text ∧ G.type = .choice
        ∨ F.type = .choice ∧ G.type = .text) :
      Fits s F op (.name p)

/-- **A comparison is well typed**: its path resolves to a field with values, and it fits that
field. -/
def Comparison.WellTyped (s : Schema) (c : Comparison) : Prop :=
  ∃ F, s.resolve c.field.segments = .ok F ∧ F.type ≠ .relation ∧ Fits s F c.op c.value

/-- **What a comparison with a field means.** An empty list matches nothing. -/
inductive Compares (s : Schema) (F : Field) (op : Operator) : Operand → Predicate → Prop
  | isNull {offset : Nat} (hop : op = .equal) :
      Compares s F op (.literal ⟨.null, offset⟩) (.isNull ⟨F.path, F.type⟩ false)
  | isNotNull {offset : Nat} (hop : op = .notEqual) :
      Compares s F op (.literal ⟨.null, offset⟩) (.isNull ⟨F.path, F.type⟩ true)
  | inEmpty {offset : Nat} (hop : op ∈ F.type.operators) (hin : op = .isIn) :
      Compares s F op (.list [] offset) .nothing
  | notInEmpty {offset : Nat} (hop : op ∈ F.type.operators) (hin : op = .notIn) :
      Compares s F op (.list [] offset) (.not .nothing)
  | list {items : List Literal} {offset : Nat} {vs : List Scalar} (hop : op ∈ F.type.operators)
      (hin : op = .isIn ∨ op = .notIn) (hne : items ≠ [])
      (hvs : List.Forall₂ (fun l v => Coerces F l.value v) items vs) :
      Compares s F op (.list items offset) (.compare ⟨F.path, F.type⟩ op (.list vs))
  | literal {l : Literal} {v : Scalar} (hnull : l.value ≠ .null) (hop : op ∈ F.type.operators)
      (hin : ¬ (op = .isIn ∨ op = .notIn)) (hv : Coerces F l.value v) :
      Compares s F op (.literal l) (.compare ⟨F.path, F.type⟩ op (.scalar v))
  | name {p : NamePath} {G : Field} (hop : op ∈ F.type.operators)
      (hin : ¬ (op = .isIn ∨ op = .notIn))
      (hG : s.resolve p.segments = .ok G)
      (ht : F.type = G.type ∨ F.type = .text ∧ G.type = .choice
        ∨ F.type = .choice ∧ G.type = .text) :
      Compares s F op (.name p) (.compare ⟨F.path, F.type⟩ op (.field ⟨G.path, G.type⟩))

/-- **What an expression means**: the predicate of the same shape, with what its comparisons
mean. -/
inductive Means (s : Schema) : Expr → Predicate → Prop
  | and {left right : Expr} {p q : Predicate} (hl : Means s left p) (hr : Means s right q) :
      Means s (.logical .and left right) (.and p q)
  | or {left right : Expr} {p q : Predicate} (hl : Means s left p) (hr : Means s right q) :
      Means s (.logical .or left right) (.or p q)
  | not {operand : Expr} {offset : Nat} {p : Predicate} (h : Means s operand p) :
      Means s (.not operand offset) (.not p)
  | comparison {c : Comparison} {F : Field} {p : Predicate}
      (hF : s.resolve c.field.segments = .ok F)
      (h : Compares s F c.op c.value p) : Means s (.comparison c) p

variable {s : Schema} {F : Field} {op : Operator} {p : Predicate}

theorem takesList_eq_true_iff : op.takesList = true ↔ op = .isIn ∨ op = .notIn := by
  cases op <;> simp [Operator.takesList]

theorem comparableWith_eq_true_iff {t u : FieldType} :
    t.comparableWith u = true
      ↔ t = u ∨ t = .text ∧ u = .choice ∨ t = .choice ∧ u = .text := by
  cases t <;> cases u <;> simp [FieldType.comparableWith]

theorem resolveAt_eq_ok_iff {path : NamePath} :
    s.resolveAt path = .ok F ↔ s.resolve path.segments = .ok F := by
  unfold Schema.resolveAt
  cases s.resolve path.segments <;> simp

theorem translateList_eq_ok_iff {items : List Literal} {offset : Nat}
    (hop : op ∈ F.type.operators) :
    translateList F op items offset = .ok p ↔ Compares s F op (.list items offset) p := by
  unfold translateList translationError
  by_cases hin : op.takesList = true
  · have hin' := takesList_eq_true_iff.mp hin
    simp only [hin, Bool.not_true, Bool.false_eq_true, if_false]
    -- an empty list means something before any item is coerced
    by_cases hne : items = []
    · subst hne
      rw [if_pos rfl, Except.ok.injEq]
      constructor
      · rintro rfl
        rcases hin' with rfl | rfl
        · exact .inEmpty hop rfl
        · exact .notInEmpty hop rfl
      · intro h
        cases h with
        | inEmpty _ hin => rw [hin]; rfl
        | notInEmpty _ hin => rw [hin]; rfl
        | list _ _ hne _ => exact absurd rfl hne
    · rw [if_neg hne]
      constructor
      · intro h
        split at h
        · rename_i vs hvs
          exact Except.ok.inj h ▸ .list hop hin' hne (mapM_coerceItem_eq_ok_iff.mp hvs)
        · exact nomatch h
      · intro h
        cases h with
        | inEmpty _ _ => exact absurd rfl hne
        | notInEmpty _ _ => exact absurd rfl hne
        | list _ _ _ hvs => rw [mapM_coerceItem_eq_ok_iff.mpr hvs]; rfl
  · rw [if_pos (by simpa using hin)]
    refine ⟨nofun, fun h => absurd (takesList_eq_true_iff.mpr ?_) hin⟩
    cases h with
    | inEmpty _ hin => exact Or.inl hin
    | notInEmpty _ hin => exact Or.inr hin
    | list _ hin _ _ => exact hin

theorem translateLiteral_eq_ok_iff {l : Literal} (hnull : l.value ≠ .null)
    (hop : op ∈ F.type.operators) :
    translateLiteral F op l = .ok p ↔ Compares s F op (.literal l) p := by
  unfold translateLiteral translationError
  constructor
  · intro h
    split at h
    · exact nomatch h
    · rename_i hin
      rw [takesList_eq_true_iff] at hin
      split at h
      · rename_i v hv
        exact Except.ok.inj h ▸ .literal hnull hop hin (coerceAt_eq_ok_iff.mp hv)
      · exact nomatch h
  · intro h
    cases h with
    | isNull _ => exact absurd rfl hnull
    | isNotNull _ => exact absurd rfl hnull
    | literal _ _ hin hv =>
      rw [if_neg (fun h => hin (takesList_eq_true_iff.mp h)), coerceAt_eq_ok_iff.mpr hv]
      rfl

theorem translateNull_eq_ok_iff {offset : Nat} :
    translateNull F op offset = .ok p ↔ Compares s F op (.literal ⟨.null, offset⟩) p := by
  unfold translateNull translationError Field.ref
  constructor
  · intro h
    split at h
    · exact Except.ok.inj h ▸ .isNull ‹_›
    · split at h
      · exact Except.ok.inj h ▸ .isNotNull ‹_›
      · exact nomatch h
  · intro h
    cases h with
    | isNull hop => rw [if_pos hop]
    | isNotNull hop => subst hop; rfl
    | literal hnull _ _ _ => exact absurd rfl hnull

theorem translateName_eq_ok_iff {path : NamePath} (hop : op ∈ F.type.operators) :
    translateName s F op path = .ok p ↔ Compares s F op (.name path) p := by
  unfold translateName translationError
  constructor
  · intro h
    split at h
    · exact nomatch h
    · rename_i hin
      rw [takesList_eq_true_iff] at hin
      split at h
      · exact nomatch h
      · rename_i G hG
        split at h
        · rename_i ht
          exact Except.ok.inj h ▸
            .name hop hin (resolveAt_eq_ok_iff.mp hG) (comparableWith_eq_true_iff.mp ht)
        · exact nomatch h
  · intro h
    cases h with
    | name _ hin hG ht =>
      rw [if_neg (fun h => hin (takesList_eq_true_iff.mp h)), resolveAt_eq_ok_iff.mpr hG]
      show (if F.type.comparableWith _ = true then _ else _) = _
      rw [if_pos (comparableWith_eq_true_iff.mpr ht)]
      rfl

/-- An operator of the type is needed for everything but null. -/
theorem Compares.mem_operators {v : Operand} (h : Compares s F op v p)
    (hnull : ∀ offset, v ≠ .literal ⟨.null, offset⟩) : op ∈ F.type.operators := by
  cases h with
  | isNull _ => exact absurd rfl (hnull _)
  | isNotNull _ => exact absurd rfl (hnull _)
  | _ => assumption

/-- **A comparison becomes what it means.** -/
theorem translateOperand_eq_ok_iff {c : Comparison} :
    translateOperand s F c = .ok p ↔ Compares s F c.op c.value p := by
  unfold translateOperand translationError
  split
  · -- null is compared without a look at the operators of the type
    rename_i offset hv
    rw [hv]
    exact translateNull_eq_ok_iff
  · rename_i hnull
    split
    · rename_i hop
      exact ⟨nofun, fun h => absurd (h.mem_operators hnull) hop⟩
    · rename_i hop
      rw [not_not] at hop
      cases hv : c.value with
      | list items offset => exact translateList_eq_ok_iff hop
      | literal l =>
        have hvalue : l.value ≠ .null := by
          intro h
          exact hnull l.offset (by rw [hv, ← h])
        exact translateLiteral_eq_ok_iff hvalue hop
      | name path => exact translateName_eq_ok_iff hop

/-- **An expression becomes what it means.** -/
theorem translate_eq_ok_iff {e : Expr} : translate s e = .ok p ↔ Means s e p := by
  induction e generalizing p with
  | logical op left right ihl ihr =>
    unfold translate
    constructor
    · intro h
      split at h
      · exact nomatch h
      · rename_i l hl
        split at h
        · exact nomatch h
        · rename_i r hr
          obtain rfl := Except.ok.inj h
          cases op with
          | and => exact .and (ihl.mp hl) (ihr.mp hr)
          | or => exact .or (ihl.mp hl) (ihr.mp hr)
    · intro h
      cases h with
      | and hl hr => rw [ihl.mpr hl, ihr.mpr hr]; rfl
      | or hl hr => rw [ihl.mpr hl, ihr.mpr hr]; rfl
  | not operand offset ih =>
    unfold translate
    constructor
    · intro h
      split at h
      · exact nomatch h
      · rename_i q hq
        exact Except.ok.inj h ▸ .not (ih.mp hq)
    · intro h
      cases h with
      | not h => rw [ih.mpr h]
  | comparison c =>
    unfold translate translateComparison
    constructor
    · intro h
      split at h
      · exact nomatch h
      · rename_i F hF
        exact .comparison (resolveAt_eq_ok_iff.mp hF) (translateOperand_eq_ok_iff.mp h)
    · intro h
      cases h with
      | comparison hF h =>
        rw [resolveAt_eq_ok_iff.mpr hF]
        exact translateOperand_eq_ok_iff.mpr h

/-! ## What has a meaning -/

/-- **A comparison means something exactly when it fits.** -/
theorem exists_compares_iff {v : Operand} : (∃ p, Compares s F op v p) ↔ Fits s F op v := by
  constructor
  · rintro ⟨p, h⟩
    cases h with
    | isNull hop => exact .null (Or.inl hop)
    | isNotNull hop => exact .null (Or.inr hop)
    | inEmpty hop hin => exact .list hop (Or.inl hin) nofun
    | notInEmpty hop hin => exact .list hop (Or.inr hin) nofun
    | list hop hin _ hvs =>
      refine .list hop hin fun l hl => ?_
      obtain ⟨v, hv⟩ := exists_values_iff.mp ⟨_, hvs⟩ l hl
      refine ⟨fun hnull => ?_, v, hv⟩
      rw [hnull] at hv
      exact not_coerces_null hv
    | literal hnull hop hin hv => exact .literal hnull hop hin hv
    | name hop hin hG ht => exact .name hop hin hG ht
  · intro h
    cases h with
    | null hop =>
      rcases hop with hop | hop
      · exact ⟨_, .isNull hop⟩
      · exact ⟨_, .isNotNull hop⟩
    | @list items _ hop hin hitems =>
      by_cases hne : items = []
      · subst hne
        rcases hin with hin | hin
        · exact ⟨_, .inEmpty hop hin⟩
        · exact ⟨_, .notInEmpty hop hin⟩
      · obtain ⟨vs, hvs⟩ := exists_values_iff.mpr fun l hl => (hitems l hl).2
        exact ⟨_, .list hop hin hne hvs⟩
    | literal hnull hop hin hv => exact ⟨_, .literal hnull hop hin hv⟩
    | name hop hin hG ht => exact ⟨_, .name hop hin hG ht⟩

/-- **An expression means something exactly when its comparisons are well typed.** -/
theorem exists_means_iff {e : Expr} : (∃ p, Means s e p) ↔ ∀ c ∈ e.comparisons, c.WellTyped s := by
  induction e with
  | logical op left right ihl ihr =>
    unfold Expr.comparisons
    rw [List.forall_mem_append, ← ihl, ← ihr]
    constructor
    · rintro ⟨p, h⟩
      cases h with
      | and hl hr => exact ⟨⟨_, hl⟩, _, hr⟩
      | or hl hr => exact ⟨⟨_, hl⟩, _, hr⟩
    · rintro ⟨⟨p, hl⟩, q, hr⟩
      cases op with
      | and => exact ⟨_, .and hl hr⟩
      | or => exact ⟨_, .or hl hr⟩
  | not operand offset ih =>
    unfold Expr.comparisons
    rw [← ih]
    constructor
    · rintro ⟨p, h⟩
      cases h with
      | not h => exact ⟨_, h⟩
    · rintro ⟨p, h⟩
      exact ⟨_, .not h⟩
  | comparison c =>
    unfold Expr.comparisons
    rw [List.forall_mem_singleton]
    unfold Comparison.WellTyped
    constructor
    · rintro ⟨p, h⟩
      cases h with
      | comparison hF h =>
        exact ⟨_, hF, Schema.type_ne_relation_of_resolve hF, exists_compares_iff.mp ⟨p, h⟩⟩
    · rintro ⟨F, hF, -, hfits⟩
      obtain ⟨p, h⟩ := exists_compares_iff.mpr hfits
      exact ⟨p, .comparison hF h⟩

/-! ## Well-typed predicates -/

/-- **A value is of the type of a field.** A value of a choice is one that the field declares. -/
def Scalar.IsOf (F : Field) : Scalar → Prop
  | .int _ | .float _ => F.type = .number
  | .text t => F.type = .text ∨ F.type = .choice ∧ ∃ g ∈ F.definition.suggestions, g.value = t
  | .bool _ => F.type = .boolean
  | .date _ => F.type = .date
  | .datetime _ => F.type = .datetime

/-- **A reference names a field with values** that the schema reaches, by its whole path and its
type. -/
def FieldRef.Names (s : Schema) (r : FieldRef) (F : Field) : Prop :=
  s.Reaches F ∧ F.type ≠ .relation ∧ r.path = F.path ∧ r.type = F.type

/-- **What a field may be compared with.** -/
def Target.IsFor (s : Schema) (F : Field) (op : Operator) : Target → Prop
  | .scalar v => op.takesList = false ∧ v.IsOf F
  | .list vs => op.takesList = true ∧ vs ≠ [] ∧ ∀ v ∈ vs, v.IsOf F
  | .field r => op.takesList = false ∧ ∃ G, r.Names s G ∧ F.type.comparableWith G.type = true

/-- **A predicate is well typed**: every comparison in it is one that the type of its field has. -/
def Predicate.WellTyped (s : Schema) : Predicate → Prop
  | .compare r op t => ∃ F, r.Names s F ∧ op ∈ F.type.operators ∧ t.IsFor s F op
  | .isNull r _ => ∃ F, r.Names s F
  | .nothing => True
  | .and left right | .or left right => left.WellTyped s ∧ right.WellTyped s
  | .not operand => operand.WellTyped s

/-- What is chosen is a declared value. -/
theorem Chooses.declared {f : FieldDef} {input v : String} (h : Chooses f input v) :
    ∃ g ∈ f.suggestions, g.value = v := by
  cases h with
  | value hg => exact hg
  | label _ hsplit _ _ => exact ⟨_, hsplit ▸ by simp, rfl⟩

/-- A number is read as one. -/
theorem isOf_of_typedNumber? {t : String} {v : Scalar} (ht : F.type = .number)
    (hv : typedNumber? t = some v) : v.IsOf F := by
  unfold typedNumber? at hv
  dsimp only at hv
  split at hv
  · exact Option.some.inj hv ▸ ht
  · obtain ⟨x, -, rfl⟩ := Option.map_eq_some_iff.mp hv
    exact ht

/-- **What a literal is coerced to is of the type.** -/
theorem Coerces.isOf {l : LiteralValue} {v : Scalar} (h : Coerces F l v) : v.IsOf F := by
  cases h with
  | int ht => exact ht
  | float ht => exact ht
  | number ht hv => exact isOf_of_typedNumber? ht hv
  | bool ht => exact ht
  | text ht => exact Or.inl ht
  | choice ht hv => exact Or.inr ⟨ht, hv.declared⟩
  | digits ht hv => exact Or.inr ⟨ht, hv.declared⟩
  | date ht _ => exact ht
  | datetime ht _ => exact ht

theorem names_of_resolve {path : List String} (h : s.resolve path = .ok F) :
    FieldRef.Names s ⟨F.path, F.type⟩ F :=
  ⟨Schema.reaches_of_resolve h, Schema.type_ne_relation_of_resolve h, rfl, rfl⟩

theorem Compares.wellTyped {path : List String} {v : Operand} (hF : s.resolve path = .ok F)
    (h : Compares s F op v p) : p.WellTyped s := by
  have hnames := names_of_resolve hF
  have hsingle : ¬ (op = .isIn ∨ op = .notIn) → op.takesList = false := fun hin =>
    Bool.eq_false_iff.mpr fun h => hin (takesList_eq_true_iff.mp h)
  cases h with
  | isNull _ => exact ⟨F, hnames⟩
  | isNotNull _ => exact ⟨F, hnames⟩
  | inEmpty _ _ => trivial
  | notInEmpty _ _ => trivial
  | list hop hin hne hvs =>
    refine ⟨F, hnames, hop, takesList_eq_true_iff.mpr hin, ?_, fun v hv => ?_⟩
    · rintro rfl
      cases hvs
      exact hne rfl
    · obtain ⟨l, hl⟩ := exists_item_of_values hvs hv
      exact hl.isOf
  | literal _ hop hin hv => exact ⟨F, hnames, hop, hsingle hin, hv.isOf⟩
  | name hop hin hG ht =>
    exact ⟨F, hnames, hop, hsingle hin, _, names_of_resolve hG, comparableWith_eq_true_iff.mpr ht⟩

/-- **What an expression means is well typed.** -/
theorem Means.wellTyped {e : Expr} (h : Means s e p) : p.WellTyped s := by
  induction h with
  | and _ _ ihl ihr => exact ⟨ihl, ihr⟩
  | or _ _ ihl ihr => exact ⟨ihl, ihr⟩
  | not _ ih => exact ih
  | comparison hF h => exact h.wellTyped hF

/-! ## The translation -/

/-- **Exactly the well-typed expressions have a predicate**, and it is a well-typed
one of the same shape. -/
theorem translate_well_typed (s : Schema) (e : Expr) :
    ((∃ p, translate s e = .ok p) ↔ ∀ c ∈ e.comparisons, c.WellTyped s)
      ∧ ∀ p, translate s e = .ok p → Means s e p ∧ p.WellTyped s := by
  simp only [translate_eq_ok_iff]
  exact ⟨exists_means_iff, fun p h => ⟨h, h.wellTyped⟩⟩

/-- The predicate of `state = "Open" and not state in ["closed", 3]`. -/
theorem translate_states :
    let state := FieldDef.choice "state"
      [⟨"open", some "Open"⟩, ⟨"closed", some "Closed"⟩, ⟨"3", none⟩]
    let s : Schema := ⟨Registry.empty.withModel "ticket" ⟨[state]⟩, "ticket", .standard,
      by decide +kernel, by decide +kernel⟩
    let e : Expr := .logical .and
      (.comparison ⟨⟨["state"], 0⟩, .equal, .literal ⟨.string "Open", 8⟩, 0⟩)
      (.not (.comparison ⟨⟨["state"], 23⟩, .isIn,
        .list [⟨.string "closed", 33⟩, ⟨.int 3, 43⟩] 32, 23⟩) 19)
    let p : Predicate := .and
      (.compare ⟨["state"], .choice⟩ .equal (.scalar (.text "open")))
      (.not (.compare ⟨["state"], .choice⟩ .isIn (.list [.text "closed", .text "3"])))
    translate s e = .ok p ∧ (∀ c ∈ e.comparisons, c.WellTyped s) ∧ Means s e p ∧ p.WellTyped s := by
  intro state s e p
  have htranslate : translate s e = .ok p := rfl
  obtain ⟨hiff, hmeans⟩ := translate_well_typed s e
  exact ⟨htranslate, hiff.mp ⟨p, htranslate⟩, hmeans p htranslate⟩

end RecordQuery
