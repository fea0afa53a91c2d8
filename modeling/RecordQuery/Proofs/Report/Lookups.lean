import Mathlib.Data.List.Induction
import RecordQuery.Proofs.Search.Visibility
import RecordQuery.Report.Explanation

/-!
# The lookups that are listed with a predicate

The lookups behind a predicate are those of the fields on the left of its comparisons and in its
null checks, each one where it comes first (`KeepsFirst`). A field on the right of a comparison
adds none. So the list tells everything that the predicate reads only if every field on the right
has stood on the left before, or stands there in the same comparison (`Predicate.Announced`); then
it is the list of all fields in the order of their first use. And records with the same values in
the listed fields can be told apart only by a field that is not listed, and such a field stands on
the right (`explain_lists`).

A list in which nothing is new stays as it is, which is all that the induction over the leaves needs
(`KeepsFirst.append_of_mem`).
-/

namespace RecordQuery

/-! ## First occurrences -/

/-- **A list is kept of another one**: it has the same members, each once and in the order of
their first occurrences. -/
def KeepsFirst {α : Type} [BEq α] (kept all : List α) : Prop :=
  (∀ x, x ∈ kept ↔ x ∈ all) ∧ kept.Pairwise fun x y => all.idxOf x < all.idxOf y

section

variable {α : Type} [BEq α] [LawfulBEq α] {kept all : List α}

/-- What comes first keeps its place when more follows. -/
theorem KeepsFirst.pairwise_append (h : KeepsFirst kept all) (more : List α) :
    kept.Pairwise fun x y => (all ++ more).idxOf x < (all ++ more).idxOf y := by
  have hmem : ∀ x ∈ kept, (all ++ more).idxOf x = all.idxOf x := fun x hx =>
    List.idxOf_append_of_mem ((h.1 x).mp hx)
  refine h.2.imp_of_mem fun hx hy hlt => ?_
  rwa [hmem _ hx, hmem _ hy]

/-- **What is kept already is not kept again.** -/
theorem KeepsFirst.append_of_mem (h : KeepsFirst kept all) {more : List α}
    (hmore : ∀ x ∈ more, x ∈ kept) :
    KeepsFirst kept (all ++ more) := by
  refine ⟨fun x => ?_, h.pairwise_append more⟩
  rw [List.mem_append, ← h.1 x]
  exact ⟨Or.inl, fun hx => hx.elim id (hmore x)⟩

/-- **What is new is kept at the end.** -/
theorem KeepsFirst.append_of_not_mem {x : α} (h : KeepsFirst kept all) (hx : x ∉ kept) :
    KeepsFirst (kept ++ [x]) (all ++ [x]) := by
  have hnew : x ∉ all := fun hall => hx ((h.1 x).mpr hall)
  refine ⟨fun y => by rw [List.mem_append, List.mem_append, h.1 y], ?_⟩
  refine List.pairwise_append.mpr ⟨h.pairwise_append [x], List.pairwise_singleton _ _,
    fun y hy z hz => ?_⟩
  obtain rfl := List.mem_singleton.mp hz
  have hyall : y ∈ all := (h.1 y).mp hy
  rw [List.idxOf_append_of_mem hyall, List.idxOf_append_of_notMem hnew]
  exact (List.idxOf_lt_length_of_mem hyall).trans_le (Nat.le_add_right _ _)

theorem eraseDups_concat (l : List α) (x : α) :
    (l ++ [x]).eraseDups = if x ∈ l.eraseDups then l.eraseDups else l.eraseDups ++ [x] := by
  rw [List.eraseDups_append, List.removeAll]
  by_cases hx : x ∈ l <;> simp [hx, List.mem_eraseDups, List.eraseDups_cons]

/-- One more element is kept if it is new. -/
theorem KeepsFirst.concat {l : List α} (h : KeepsFirst l.eraseDups all) (x : α) :
    KeepsFirst (l ++ [x]).eraseDups (all ++ [x]) := by
  rw [eraseDups_concat]
  split
  · exact h.append_of_mem fun y hy => by rwa [List.mem_singleton.mp hy]
  · exact h.append_of_not_mem ‹_›

/-- **Erasing repetitions keeps the first occurrences.** -/
theorem keepsFirst_eraseDups (l : List α) : KeepsFirst l.eraseDups l := by
  induction l using List.reverseRecOn with
  | nil => exact ⟨fun _ => Iff.rfl, .nil⟩
  | append_singleton l x ih => exact ih.concat x

end

/-! ## The leaves of a predicate -/

namespace Predicate

/-- **The fields of every leaf** from left to right: the one on its left, and those on its right. -/
def leafFields : Predicate → List (FieldRef × List FieldRef)
  | .compare field _ target => [(field, target.fields)]
  | .isNull field _ => [(field, [])]
  | .nothing => []
  | .and left right | .or left right => left.leafFields ++ right.leafFields
  | .not operand => operand.leafFields

theorem subjects_eq (p : Predicate) : p.subjects = p.leafFields.map Prod.fst := by
  induction p with
  | compare field op target => rfl
  | isNull field negated => rfl
  | nothing => rfl
  | and left right ihl ihr => rw [subjects, leafFields, ihl, ihr, List.map_append]
  | or left right ihl ihr => rw [subjects, leafFields, ihl, ihr, List.map_append]
  | not operand ih => rw [subjects, leafFields, ih]

theorem fields_eq (p : Predicate) : p.fields = p.leafFields.flatMap fun x => x.1 :: x.2 := by
  induction p with
  | compare field op target => simp [fields, leafFields]
  | isNull field negated => simp [fields, leafFields]
  | nothing => rfl
  | and left right ihl ihr => rw [fields, leafFields, ihl, ihr, List.flatMap_append]
  | or left right ihl ihr => rw [fields, leafFields, ihl, ihr, List.flatMap_append]
  | not operand ih => rw [fields, leafFields, ih]

/-- **Whether a list of leaves announces every field on the right**: its lookup is that of a field
on the left, of the same leaf or of one before it. -/
def Announces (leaves : List (FieldRef × List FieldRef)) : Prop :=
  ∀ before field others after, leaves = before ++ (field, others) :: after →
    ∀ r ∈ others, ∃ f ∈ before.map Prod.fst ++ [field], f.lookup = r.lookup

/-- Whether a predicate announces every field on the right of a comparison. -/
def Announced (p : Predicate) : Prop := Announces p.leafFields

/-- **Of announced fields the left ones keep all.** The induction goes along the leaves, and the
last of them adds at most its left field. -/
theorem Announces.keepsFirst {leaves : List (FieldRef × List FieldRef)} (h : Announces leaves) :
    KeepsFirst ((leaves.map Prod.fst).map FieldRef.lookup).eraseDups
      ((leaves.flatMap fun x => x.1 :: x.2).map FieldRef.lookup) := by
  induction leaves using List.reverseRecOn with
  | nil => exact keepsFirst_eraseDups []
  | append_singleton leaves leaf ih =>
    obtain ⟨field, others⟩ := leaf
    have hbefore : Announces leaves := by
      rintro before f rs after rfl
      exact h before f rs (after ++ [(field, others)]) (by rw [List.append_assoc, List.cons_append])
    have hleft := (ih hbefore).concat field.lookup
    have hothers : ∀ x ∈ others.map FieldRef.lookup,
        x ∈ ((leaves.map Prod.fst).map FieldRef.lookup ++ [field.lookup]).eraseDups := by
      intro x hx
      obtain ⟨r, hr, rfl⟩ := List.mem_map.mp hx
      obtain ⟨f, hf, hlookup⟩ := h leaves field others [] rfl r hr
      rw [List.mem_eraseDups, ← hlookup]
      simpa using List.mem_map_of_mem (f := FieldRef.lookup) hf
    have hall := hleft.append_of_mem hothers
    simpa only [List.map_append, List.map_cons, List.map_nil, List.flatMap_append,
      List.flatMap_cons, List.flatMap_nil, List.append_nil, List.append_assoc,
      List.singleton_append] using hall

end Predicate

/-! ## What is listed -/

/-- **Two records have the same values in every listed field** of a predicate. -/
def Predicate.SameListed (p : Predicate) (a b : Json) : Prop :=
  ∀ r ∈ p.fields, r.lookup ∈ p.listedLookups → valuesAt a r.path = valuesAt b r.path

/-- A field on the left is listed. -/
theorem Predicate.lookup_mem_listedLookups {p : Predicate} {r : FieldRef} (h : r ∈ p.subjects) :
    r.lookup ∈ p.listedLookups := List.mem_eraseDups.mpr (List.mem_map_of_mem h)

/-- **The check of a query lists the fields on the left.** Their lookups stand behind the
predicate, each once and in the order of first use. If every field on the right is announced, they
are the lookups of all fields that the predicate reads, and records with the same values in the
listed fields are both matched or both not. Records that are told apart all the same differ in a
field on the right that is not listed. -/
theorem explain_lists (p : Predicate) :
    explain true (some p) = p.render ++ "\n\nlookups: " ++ String.intercalate ", " p.listedLookups
      ∧ KeepsFirst p.listedLookups (p.subjects.map FieldRef.lookup)
      ∧ (p.Announced → KeepsFirst p.listedLookups (p.fields.map FieldRef.lookup)
        ∧ ∀ a b, p.SameListed a b → p.holds a = p.holds b)
      ∧ ∀ a b, p.SameListed a b → p.holds a ≠ p.holds b → ∃ x ∈ p.leafFields, ∃ r ∈ x.2,
        r.lookup ∉ p.listedLookups ∧ valuesAt a r.path ≠ valuesAt b r.path := by
  refine ⟨rfl, keepsFirst_eraseDups _, fun h => ?_, fun a b hsame hne => ?_⟩
  · have hkeeps := h.keepsFirst
    rw [← p.subjects_eq, ← p.fields_eq] at hkeeps
    refine ⟨hkeeps, fun a b hsame => Predicate.holds_congr fun r hr => hsame r hr ?_⟩
    exact (hkeeps.1 _).mpr (List.mem_map_of_mem hr)
  · have hdiffers : ∃ r ∈ p.fields, valuesAt a r.path ≠ valuesAt b r.path := by
      by_contra hnone
      push Not at hnone
      exact hne (Predicate.holds_congr hnone)
    obtain ⟨r, hr, hvalues⟩ := hdiffers
    have hunlisted : r.lookup ∉ p.listedLookups := fun hlisted => hvalues (hsame r hr hlisted)
    rw [p.fields_eq] at hr
    obtain ⟨x, hx, hr⟩ := List.mem_flatMap.mp hr
    rcases List.mem_cons.mp hr with rfl | hr
    · -- the field on the left of a leaf is listed
      have hleft : x.1 ∈ p.subjects := p.subjects_eq ▸ List.mem_map_of_mem hx
      exact absurd (Predicate.lookup_mem_listedLookups hleft) hunlisted
    · exact ⟨x, hx, r, hr, hunlisted, hvalues⟩

namespace Payment

/-- The schema of payments with an amount and a total. -/
def schema : Schema :=
  ⟨Registry.empty.withModel "payment" ⟨[.plain "amount" .number, .plain "total" .number]⟩,
    "payment", .standard, by decide +kernel, by decide +kernel⟩

/-- A payment. -/
def record (amount total : Int) : Json :=
  .object [("amount", .number (.int amount)), ("total", .number (.int total))]

/-- The amount of a payment, as a predicate refers to it. -/
def amount : FieldRef := ⟨["amount"], .number⟩

/-- The total of a payment. -/
def total : FieldRef := ⟨["total"], .number⟩

/-- Payments of the same amount have the same values in the fields that are listed
with `amount = total`. -/
theorem sameListed (n k k' : Int) :
    (Predicate.compare amount .equal (.field total)).SameListed (record n k) (record n k') := by
  intro r hr hlisted
  obtain rfl | rfl : r = amount ∨ r = total := by simpa [Predicate.fields, Target.fields] using hr
  · rfl
  · exact absurd hlisted (by decide +kernel)

end Payment

open Payment

/-- If the total has stood on the left before it stands on the right, both fields are listed, and
no payment differs from another one with the same amount and the same total. Payments of one
amount that `amount = total` tells apart have different totals. -/
theorem explain_lists_total :
    let p : Predicate :=
      .and (.compare total .greater (.scalar (.int 1))) (.compare amount .equal (.field total))
    let right : Predicate := .compare amount .equal (.field total)
    search schema "total > 1 and amount = total" = .ok (some p)
      ∧ explain true (some p) = p.render ++ "\n\nlookups: total, amount"
      ∧ p.Announced ∧ KeepsFirst ["total", "amount"] ["total", "amount", "total"]
      ∧ p.holds (record 2 2)
        = p.holds (.object [("total", .number (.int 2)), ("amount", .number (.int 2))])
      ∧ ∃ x ∈ right.leafFields, ∃ r ∈ x.2,
        r.lookup ∉ right.listedLookups
          ∧ valuesAt (record 2 2) r.path ≠ valuesAt (record 2 3) r.path := by
  intro p right
  have hannounced : p.Announced := by
    intro before field others after hsplit r hr
    have hleaves : p.leafFields = [(total, []), (amount, [total])] := rfl
    rw [hleaves] at hsplit
    match before, hsplit with
    | [], hsplit =>
      obtain ⟨⟨rfl, rfl⟩, -⟩ : (total = field ∧ [] = others) ∧ _ = after := by simpa using hsplit
      cases hr
    | [x], hsplit =>
      obtain ⟨rfl, ⟨rfl, rfl⟩, -⟩ : (total, []) = x ∧ (amount = field ∧ [total] = others)
          ∧ [] = after := by
        simpa using hsplit
      obtain rfl := List.mem_singleton.mp hr
      exact ⟨total, by simp, rfl⟩
    | _ :: _ :: _, hsplit => simp at hsplit
  obtain ⟨htext, -, hwhole, -⟩ := explain_lists p
  obtain ⟨hkeeps, hsame⟩ := hwhole hannounced
  refine ⟨by decide +kernel, htext, hannounced, hkeeps, hsame _ _ fun r hr _ => ?_, ?_⟩
  · obtain rfl | rfl | rfl : r = total ∨ r = amount ∨ r = total := by
      simpa [p, Predicate.fields, Target.fields] using hr
    all_goals rfl
  · exact (explain_lists right).2.2.2 _ _ (sameListed 2 2 3) (by decide +kernel)

/-- **A field on the right alone is not listed.** The list of `amount = total` is `amount`, and
two payments of the same amount are told apart by their totals. -/
theorem explain_misses_total :
    let p : Predicate := .compare amount .equal (.field total)
    search schema "amount = total" = .ok (some p)
      ∧ explain true (some p) = "amount = total\n\nlookups: amount"
      ∧ ¬ KeepsFirst p.listedLookups (p.fields.map FieldRef.lookup)
      ∧ p.SameListed (record 2 2) (record 2 3) ∧ p.holds (record 2 2) ≠ p.holds (record 2 3) := by
  intro p
  refine ⟨by decide +kernel, by decide +kernel, fun h => ?_, sameListed 2 2 3, by decide +kernel⟩
  have htotal : "total" ∈ p.listedLookups := (h.1 "total").mpr (by decide +kernel)
  exact absurd htotal (by decide +kernel)

end RecordQuery
