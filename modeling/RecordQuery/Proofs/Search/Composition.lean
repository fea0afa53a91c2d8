import RecordQuery.Proofs.Search.Meaning

/-!
# Composed queries

Two queries in parentheses with a connective between them are searched for the two predicates
joined, and one in parentheses after a negation for its predicate negated, whatever stands inside
(`search_composes`). So the records that are shown are those that both queries show, those that
one of the two shows, and those that the query does not show.
-/

namespace RecordQuery

/-! ## The records that are shown -/

namespace Outcome

/-- **A position is shown** when the record there is. -/
theorem mem_positions_iff {o : Outcome} {records : List Json} {i : Nat} :
    i ∈ o.positions records ↔ ∃ r, records[i]? = some r ∧ shows r o = true := by
  unfold positions
  simp only [List.mem_map, List.mem_filter, Prod.exists, exists_eq_right,
    List.mk_mem_zipIdx_iff_getElem?]

/-- **The records that are shown are those at the positions.** -/
theorem filter_eq_positions (o : Outcome) (records : List Json) :
    o.filter records = (o.positions records).filterMap (records[·]?) := by
  have hat : ∀ x ∈ records.zipIdx.filter fun x => shows x.1 o, some x.1 = records[x.2]? :=
    fun x hx => (List.mk_mem_zipIdx_iff_getElem?.mp (List.mem_filter.mp hx).1).symm
  calc o.filter records
      = (records.zipIdx.map Prod.fst).filter (shows · o) := by rw [List.zipIdx_map_fst]; rfl
    _ = (records.zipIdx.filter fun x => shows x.1 o).map Prod.fst := List.filter_map
    _ = (records.zipIdx.filter fun x => shows x.1 o).filterMap fun x => some x.1 :=
        (congrFun List.filterMap_eq_map _).symm
    _ = (records.zipIdx.filter fun x => shows x.1 o).filterMap fun x => records[x.2]? :=
        List.filterMap_congr hat
    _ = (o.positions records).filterMap (records[·]?) := List.filterMap_map.symm

end Outcome

/-- **The positions of the records that a query shows.** -/
def shownAt (s : Schema) (q : String) (records : List Json) : List Nat :=
  (Outcome.ofQuery s q).positions records

variable {s : Schema} {q q₁ q₂ : String} {p p₁ p₂ : Predicate} {records : List Json} {i : Nat}

/-- A query shows the records that its predicate holds of. -/
theorem mem_shownAt_iff (h : search s q = .ok (some p)) :
    i ∈ shownAt s q records ↔ ∃ r, records[i]? = some r ∧ p.holds r = true := by
  unfold shownAt Outcome.ofQuery
  rw [h]
  exact Outcome.mem_positions_iff

/-! ## Composition -/

/-- **A text is found when it keeps the limits**: it has this nesting and this number of
comparisons, and if these are within the limits, a search gives the predicate and shows the
positions that `Shown` says. -/
def Finds (s : Schema) (q : String) (nesting terms : Nat) (p : Predicate)
    (Shown : List Json → Nat → Prop) : Prop :=
  Measures q nesting terms ∧ (nesting ≤ 64 → terms ≤ 256 →
    search s q = .ok (some p) ∧ ∀ records i, i ∈ shownAt s q records ↔ Shown records i)

/-- A text that writes a tree is found. -/
theorem finds_of_writes {n k : Nat} {e e' : Expr} {Shown : List Json → Nat → Prop}
    (h : Writes q n k e') (hbare : e'.bare = e.bare) (hp : Means s e p)
    (hshown : ∀ records i, (∃ r, records[i]? = some r ∧ p.holds r = true) ↔ Shown records i) :
    Finds s q n k p Shown := by
  refine ⟨⟨e', h⟩, fun hn hk => ?_⟩
  have hsearch : search s q = .ok (some p) := (h.search_eq_some_iff hbare hp).mpr ⟨hn, hk⟩
  exact ⟨hsearch, fun records i => (mem_shownAt_iff hsearch).trans (hshown records i)⟩

/-- **Queries compose.** If two queries have predicates, then in parentheses they are searched for
the predicates joined by a connective or negated, and show the positions that both show, that one
of them shows or that the first does not show. The composed text is one level deeper than the
queries in it, or two when it is negated, and has the comparisons of both. -/
theorem search_composes (h₁ : search s q₁ = .ok (some p₁)) (h₂ : search s q₂ = .ok (some p₂)) :
    ∃ n₁ k₁ n₂ k₂, Measures q₁ n₁ k₁ ∧ Measures q₂ n₂ k₂
      ∧ Finds s ("(" ++ q₁ ++ ") and (" ++ q₂ ++ ")") (max n₁ n₂ + 1) (k₁ + k₂) (.and p₁ p₂)
          (fun records i => i ∈ shownAt s q₁ records ∧ i ∈ shownAt s q₂ records)
      ∧ Finds s ("(" ++ q₁ ++ ") or (" ++ q₂ ++ ")") (max n₁ n₂ + 1) (k₁ + k₂) (.or p₁ p₂)
          (fun records i => i ∈ shownAt s q₁ records ∨ i ∈ shownAt s q₂ records)
      ∧ Finds s ("not (" ++ q₁ ++ ")") (n₁ + 2) k₁ (.not p₁)
          (fun records i => i < records.length ∧ i ∉ shownAt s q₁ records) := by
  obtain ⟨e₁, hparse₁, hmeans₁⟩ := search_eq_some_iff.mp h₁
  obtain ⟨e₂, hparse₂, hmeans₂⟩ := search_eq_some_iff.mp h₂
  obtain ⟨n₁, k₁, hwrites₁⟩ := exists_writes_of_parse hparse₁
  obtain ⟨n₂, k₂, hwrites₂⟩ := exists_writes_of_parse hparse₂
  obtain ⟨eand, hbareand, hwritesand⟩ := hwrites₁.join hwrites₂ .and
  obtain ⟨eor, hbareor, hwritesor⟩ := hwrites₁.join hwrites₂ .or
  obtain ⟨enot, hbarenot, hwritesnot⟩ := hwrites₁.negate
  have handtext : "(" ++ q₁ ++ ") " ++ Connective.keyword .and ++ " (" ++ q₂ ++ ")"
      = "(" ++ q₁ ++ ") and (" ++ q₂ ++ ")" := String.ext (by simp [Connective.keyword])
  have hortext : "(" ++ q₁ ++ ") " ++ Connective.keyword .or ++ " (" ++ q₂ ++ ")"
      = "(" ++ q₁ ++ ") or (" ++ q₂ ++ ")" := String.ext (by simp [Connective.keyword])
  rw [handtext] at hwritesand
  rw [hortext] at hwritesor
  refine ⟨n₁, k₁, n₂, k₂, ⟨e₁, hwrites₁⟩, ⟨e₂, hwrites₂⟩, ?_, ?_, ?_⟩
  · refine finds_of_writes hwritesand hbareand (.and hmeans₁ hmeans₂) fun records i => ?_
    rw [mem_shownAt_iff h₁, mem_shownAt_iff h₂]
    cases records[i]? <;> simp [Predicate.holds]
  · refine finds_of_writes hwritesor hbareor (.or hmeans₁ hmeans₂) fun records i => ?_
    rw [mem_shownAt_iff h₁, mem_shownAt_iff h₂]
    cases records[i]? <;> simp [Predicate.holds]
  · refine finds_of_writes hwritesnot hbarenot (.not hmeans₁) fun records i => ?_
    have hlength : i < records.length ↔ records[i]?.isSome = true := by simp
    rw [mem_shownAt_iff h₁, hlength]
    cases records[i]? <;> simp [Predicate.holds]

/-- The conjunction of `title ~ "a" or done = true` and `not done != false`. -/
theorem search_composed_tasks :
    let s : Schema :=
      ⟨Registry.empty.withModel "task" ⟨[.plain "title" .text, .plain "done" .boolean]⟩,
      "task", .standard, by decide +kernel, by decide +kernel⟩
    let q₁ := "title ~ \"a\" or done = true"
    let q₂ := "not done != false"
    let both := "(" ++ q₁ ++ ") and (" ++ q₂ ++ ")"
    ∃ p₁ p₂, search s q₁ = .ok (some p₁) ∧ search s q₂ = .ok (some p₂)
      ∧ search s both = .ok (some (.and p₁ p₂))
      ∧ ∀ records i, i ∈ shownAt s both records
        ↔ i ∈ shownAt s q₁ records ∧ i ∈ shownAt s q₂ records := by
  intro s q₁ q₂ both
  let p₁ : Predicate := .or (.compare ⟨["title"], .text⟩ .contains (.scalar (.text "a")))
    (.compare ⟨["done"], .boolean⟩ .equal (.scalar (.bool true)))
  let p₂ : Predicate := .not (.compare ⟨["done"], .boolean⟩ .notEqual (.scalar (.bool false)))
  have h₁ : search s q₁ = .ok (some p₁) := by decide +kernel
  have h₂ : search s q₂ = .ok (some p₂) := by decide +kernel
  obtain ⟨e, he⟩ : ∃ e, parse both = .ok e := by
    have hok : (parse both).isOk = true := by decide +kernel
    cases hparse : parse both with
    | ok e => exact ⟨e, rfl⟩
    | error err => exact nomatch hparse ▸ hok
  obtain ⟨n₁, k₁, n₂, k₂, -, -, ⟨hmeasures, hfinds⟩, -⟩ := search_composes h₁ h₂
  obtain ⟨hn, hk⟩ := hmeasures.limits_of_parse he
  exact ⟨p₁, p₂, h₁, h₂, hfinds hn hk⟩

end RecordQuery
