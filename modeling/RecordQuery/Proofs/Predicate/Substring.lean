import RecordQuery.Proofs.Predicate.Expansion

/-!
# Searching for a part of a text

The operator `~` looks for a text in a value with both in lower case. In lower case a part of a
text is a part of the whole text in lower case if each of its characters has the same image in
both. The image of a character depends on nothing but the character, with one exception: a capital
sigma becomes `ς` where it ends a word. So a part is found when its capital sigmas end words in
the part as they do in the whole text (`contains_part`), and in particular when it has none
(`keepsSigmas_of_not_mem`); this is exactly when the part is lowered in its place as it is alone
(`lowercaseBetween_eq_lowercase_iff`).

Otherwise it may be missed: `ΑΣ` is not found in `ΑΣΑ`, where its sigma does not end the word
(`contains_misses_part`).
-/

namespace RecordQuery

namespace Text

/-! ## Lower case of a part -/

/-- **The image of a part of a text between two others**; `before` is the text in front of it,
nearest character first. -/
def lowercaseBetween (before : List Char) : List Char → List Char → List Char
  | [], _ => []
  | c :: rest,
      after => lowerBetween before c (rest ++ after) ++ lowercaseBetween (c :: before) rest after

/-- A text is lowered part by part. -/
theorem lowercaseAfter_append (before part after : List Char) :
    lowercaseAfter before (part ++ after)
    = lowercaseBetween before part after ++ lowercaseAfter (part.reverse ++ before) after := by
  induction part generalizing before with
  | nil => rfl
  | cons c rest ih =>
    simp only [List.cons_append, lowercaseAfter, lowercaseBetween, ih, List.reverse_cons,
      List.append_assoc, List.nil_append]

theorem lowercaseBetween_nil (before part : List Char) :
    lowercaseBetween before part [] = lowercaseAfter before part := by
  have happend := lowercaseAfter_append before part []
  simpa [lowercaseAfter] using happend.symm

/-- **A part of a text becomes a part of the text in lower case.** -/
theorem lowercase_append (pre part post : List Char) : lowercase (pre ++ part ++ post)
    = lowercaseBetween [] pre (part ++ post) ++ lowercaseBetween pre.reverse part post
      ++ lowercaseAfter (part.reverse ++ pre.reverse) post := by
  unfold lowercase
  rw [List.append_assoc, lowercaseAfter_append, lowercaseAfter_append, List.append_nil,
    List.append_assoc]

/-- Whether a sigma between two texts ends a word; `before` is the text in front of it,
nearest character first. -/
def endsWord (before after : List Char) : Bool := startsCased before && !startsCased after

/-- The image of a character is a matter of the character, and of the ends of words if
that is a capital sigma. -/
theorem lowerBetween_eq_iff (before before' : List Char) (c : Char) (after after' : List Char) :
    (lowerBetween before c after).length = (lowerBetween before' c after').length
      ∧ (lowerBetween before c after = lowerBetween before' c after'
        ↔ (c = capitalSigma → endsWord before after = endsWord before' after')) := by
  by_cases hc : c = capitalSigma
  · have hsigma : ∀ before after,
        lowerBetween before c after = if endsWord before after then ['ς'] else ['σ'] :=
      fun before after => if_pos hc
    rw [hsigma, hsigma]
    cases endsWord before after <;> cases endsWord before' after' <;> simp [hc]
  · have hsame : lowerBetween before c after = lowerBetween before' c after' := by
      simp only [lowerBetween, if_neg hc]
    simp [hsame, hc]

/-- **Whether the capital sigmas of a part end words in the part as they do between two other
texts.** -/
def KeepsSigmas (before part after : List Char) : Prop :=
  ∀ u v, part = u ++ capitalSigma :: v →
    endsWord (u.reverse ++ before) (v ++ after) = endsWord u.reverse v

theorem keepsSigmas_of_not_mem {part : List Char} (h : capitalSigma ∉ part)
    (before after : List Char) :
    KeepsSigmas before part after := by
  rintro u v rfl
  exact absurd (List.mem_append_right u List.mem_cons_self) h

/-- An element of a list stands at its front or behind that. -/
theorem forall_split_cons_iff {α : Type} {a c : α} {rest : List α} {P : List α → List α → Prop} :
    (∀ u v, c :: rest = u ++ a :: v → P u v) ↔ (c = a → P [] rest) ∧ ∀ u v, rest = u ++ a :: v →
      P (c :: u) v := by
  constructor
  · intro h
    refine ⟨?_, ?_⟩
    · rintro rfl
      exact h [] rest rfl
    · rintro u v rfl
      exact h (c :: u) v rfl
  · rintro ⟨hfront, hbehind⟩ u v heq
    cases u with
    | nil =>
      obtain ⟨rfl, rfl⟩ := List.cons.inj heq
      exact hfront rfl
    | cons b u =>
      obtain ⟨rfl, hrest⟩ := List.cons.inj heq
      exact hbehind u v hrest

/-- Behind some characters of the part, the rest of it is lowered alike in its place and alone
when its sigmas end words alike. -/
theorem lowercaseBetween_eq_iff (inner before rest after : List Char) :
    lowercaseBetween (inner ++ before) rest after = lowercaseBetween inner rest []
      ↔ ∀ u v, rest = u ++ capitalSigma :: v →
        endsWord (u.reverse ++ (inner ++ before)) (v ++ after)
          = endsWord (u.reverse ++ inner) v := by
  induction rest generalizing inner with
  | nil => simp [lowercaseBetween]
  | cons c rest ih =>
    obtain ⟨hlength, hfirst⟩ :=
      lowerBetween_eq_iff (inner ++ before) inner c (rest ++ after) (rest ++ [])
    have hrest := ih (c :: inner)
    rw [lowercaseBetween, lowercaseBetween, List.append_eq_append_iff_of_size_eq_left hlength,
      hfirst, List.append_nil, forall_split_cons_iff]
    refine and_congr Iff.rfl (hrest.trans ?_)
    simp only [List.reverse_cons, List.append_assoc, List.cons_append, List.nil_append]

/-- **A part is lowered in its place as it is alone** exactly if its capital sigmas end words
there as they do alone. -/
theorem lowercaseBetween_eq_lowercase_iff (before part after : List Char) :
    lowercaseBetween before part after = lowercase part ↔ KeepsSigmas before part after := by
  have hwhole := lowercaseBetween_eq_iff [] before part after
  simp only [lowercaseBetween_nil, List.nil_append, List.append_nil] at hwhole
  exact hwhole

/-- **In lower case a part is a part of the whole text** if its capital sigmas end words
there as they do alone. -/
theorem lowercase_infix {pre part post : List Char} (h : KeepsSigmas pre.reverse part post) :
    lowercase part <:+: lowercase (pre ++ part ++ post) := by
  rw [lowercase_append, (lowercaseBetween_eq_lowercase_iff _ _ _).mpr h]
  exact ⟨_, _, rfl⟩

end Text

/-! ## Searching -/

theorem hasPart_eq_true_iff {part cs : List Char} : hasPart part cs = true ↔ part <:+: cs := by
  induction cs with
  | nil => simp [hasPart]
  | cons c cs ih =>
    rw [hasPart, Bool.or_eq_true, List.isPrefixOf_iff_prefix, ih, List.infix_cons_iff]

/-- **What a search for a part says** of a text. -/
theorem stands_contains_iff {t part : String} : stands (.string t) .contains (.text part) = true
    ↔ Text.lowercase part.toList <:+: Text.lowercase t.toList := hasPart_eq_true_iff

variable {s : Schema} {c : Comparison} {F : Field} {record : Json}

/-- **A part of a text is found**, as long as its capital sigmas end words in it as they
do in the text: the search matches if some value of the field is the text, and the
negated search does not. -/
theorem contains_part {pre part post : String} {offset : Nat}
    (hF : s.resolve c.field.segments = .ok F) (htype : F.type = .text)
    (hvalue : c.value = .literal ⟨.string part, offset⟩)
    (ht : .string (pre ++ part ++ post) ∈ valuesAt record F.path)
    (hsigmas : Text.KeepsSigmas pre.toList.reverse part.toList post.toList) :
    (c.withOp .contains).Matches s record ∧ (c.withOp .notContains).Answers s record false := by
  have hinfix := Text.lowercase_infix hsigmas
  have hstands : stands (.string (pre ++ part ++ post)) .contains (.text part) = true := by
    rw [stands_contains_iff, String.toList_append, String.toList_append]
    exact hinfix
  have hholds : comparisonHolds record ⟨F.path, F.type⟩ .contains (.scalar (.text part)) = true :=
    List.any_eq_true.mpr ⟨_, ht, hstands⟩
  have hop : .contains ∈ F.type.operators := htype ▸ by decide
  have hmatches := (matches_literal_iff hvalue hF (.text htype) hop rfl).mpr hholds
  have hnegation : (Operator.notContains, Operator.contains) ∈ Operator.negations := by decide
  exact ⟨hmatches, (answers_negation_iff hnegation).mpr hmatches⟩

/-- A part with two sigmas, one at the end of a word and one at the beginning of the next. -/
theorem contains_part_sigmas :
    let registry := Registry.empty.withModel "song" ⟨[.plain "title" .text]⟩
    let s : Schema := ⟨registry, "song", .standard, by decide +kernel, by decide +kernel⟩
    let record : Json := .object [("title", .string "ΟΔΟΣ ΣΟΦΟΣ")]
    let c : Comparison := ⟨⟨["title"], 0⟩, .contains, .literal ⟨.string "ΟΣ ΣΟ", 8⟩, 0⟩
    .string ("ΟΔ" ++ "ΟΣ ΣΟ" ++ "ΦΟΣ") ∈ valuesAt record ["title"]
      ∧ (c.withOp .contains).Matches s record
      ∧ (c.withOp .notContains).Answers s record false := by
  intro registry s record c
  let title : Field := ⟨["title"], "song", .plain "title" .text⟩
  have htitle : s.resolve c.field.segments = .ok title := by decide +kernel
  have hvalues : valuesAt record ["title"] = [.string "ΟΔΟΣ ΣΟΦΟΣ"] := rfl
  have hwhole : "ΟΔ" ++ "ΟΣ ΣΟ" ++ "ΦΟΣ" = "ΟΔΟΣ ΣΟΦΟΣ" := by decide +kernel
  have htext : .string ("ΟΔ" ++ "ΟΣ ΣΟ" ++ "ΦΟΣ") ∈ valuesAt record ["title"] := by
    rw [hvalues, hwhole]
    exact List.mem_singleton_self _
  have hsigmas : Text.KeepsSigmas "ΟΔ".toList.reverse "ΟΣ ΣΟ".toList "ΦΟΣ".toList :=
    (Text.lowercaseBetween_eq_lowercase_iff _ _ _).mp (by decide +kernel)
  exact ⟨htext, contains_part htitle rfl rfl htext hsigmas⟩

/-- **A part that ends with a sigma inside a word is missed**: alone its sigma ends a word. -/
theorem contains_misses_part :
    let registry := Registry.empty.withModel "poem" ⟨[.plain "title" .text]⟩
    let s : Schema := ⟨registry, "poem", .standard, by decide +kernel, by decide +kernel⟩
    let record : Json := .object [("title", .string "ΑΣΑ")]
    let c : Comparison := ⟨⟨["title"], 0⟩, .contains, .literal ⟨.string "ΑΣ", 8⟩, 0⟩
    "ΑΣΑ" = "ΑΣ" ++ "Α" ∧ ¬ (c.withOp .contains).Matches s record
      ∧ (c.withOp .notContains).Matches s record := by
  intro registry s record c
  exact ⟨by decide +kernel, by decide +kernel, by decide +kernel⟩

end RecordQuery
