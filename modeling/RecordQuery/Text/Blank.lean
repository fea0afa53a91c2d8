/-!
# Blanks

A **blank** is a character of the Unicode property White_Space. Blanks separate the words of a
query, and reading a number or a date ignores them at both ends of the text.

The table is the whole property, so `isBlank` is wider than the class of ASCII spaces that core
knows (`isBlank_of_isWhitespace`). Trimming is dropping from the front, turning the text around
and dropping again; `trim_eq_nil_iff` says that only a text of blanks trims to nothing.
-/

namespace RecordQuery.Text

/-- The code points of Unicode's White_Space, as closed ranges in ascending order. -/
def blankRanges : List (Nat × Nat) :=
  [(0x9, 0xD), (0x20, 0x20), (0x85, 0x85), (0xA0, 0xA0), (0x1680, 0x1680), (0x2000, 0x200A),
   (0x2028, 0x2029), (0x202F, 0x202F), (0x205F, 0x205F), (0x3000, 0x3000)]

/-- **A character is blank when it has the property White_Space.** -/
def isBlank (c : Char) : Bool :=
  blankRanges.any fun r => r.1 ≤ c.toNat && c.toNat ≤ r.2

/-- Every space that core's ASCII class knows is a blank. -/
theorem isBlank_of_isWhitespace {c : Char} (h : c.isWhitespace = true) : isBlank c = true := by
  simp only [Char.isWhitespace, Bool.or_eq_true, decide_eq_true_eq] at h
  rcases h with ((h | h) | h) | h <;> subst h <;> decide

/-- No printable character of ASCII but the space is a blank. -/
theorem isBlank_of_ascii {c : Char} (hleast : 33 ≤ c.toNat) (hgreatest : c.toNat ≤ 126) :
    isBlank c = false := by
  rw [Bool.eq_false_iff]
  intro h
  unfold isBlank at h
  rw [List.any_eq_true] at h
  obtain ⟨r, hr, hc⟩ := h
  simp only [Bool.and_eq_true, decide_eq_true_iff] at hc
  have hranges : ∀ r ∈ blankRanges, r.2 ≤ 32 ∨ 127 ≤ r.1 := by decide
  rcases hranges r hr with h | h
  · exact absurd hc.2 (by omega)
  · exact absurd hc.1 (by omega)

/-- The text without the blanks at its front. -/
def trimLeft (cs : List Char) : List Char := cs.dropWhile isBlank

/-- **The text without the blanks at its two ends.** -/
def trim (cs : List Char) : List Char := (trimLeft (trimLeft cs).reverse).reverse

/-- Dropping blanks never makes a text longer. -/
theorem length_trimLeft_le (cs : List Char) : (trimLeft cs).length ≤ cs.length :=
  (List.dropWhile_sublist isBlank).length_le

/-- Only a text of blanks is dropped entirely. -/
theorem trimLeft_eq_nil_iff (cs : List Char) :
    trimLeft cs = [] ↔ ∀ c ∈ cs, isBlank c = true := by
  induction cs with
  | nil => simp [trimLeft]
  | cons c r ih =>
    by_cases h : isBlank c = true
    · rw [trimLeft, List.dropWhile_cons_of_pos h, List.forall_mem_cons]
      exact ih.trans (and_iff_right h).symm
    · simp [trimLeft, h]

/-- What is left after dropping blanks does not begin with one. -/
theorem trimLeft_trimLeft (cs : List Char) : trimLeft (trimLeft cs) = trimLeft cs := by
  induction cs with
  | nil => rfl
  | cons c r ih =>
    by_cases h : isBlank c = true
    · simpa [trimLeft, h] using ih
    · simp [trimLeft, h]

/-- A text is the blanks at its front and what is left after dropping them, which
begins with no blank. -/
theorem append_of_trimLeft {cs rest : List Char} {c : Char} (h : trimLeft cs = c :: rest) :
    cs.takeWhile isBlank ++ c :: rest = cs ∧ isBlank c = false := by
  have hhead := List.head?_dropWhile_not isBlank cs
  rw [show cs.dropWhile isBlank = c :: rest from h] at hhead
  exact ⟨h ▸ List.takeWhile_append_dropWhile, by simpa using hhead⟩

/-- **A text with no blank at its ends is not trimmed.** -/
theorem trim_eq_self {cs : List Char} (hfirst : ∀ c ∈ cs.head?, isBlank c = false)
    (hlast : ∀ c ∈ cs.getLast?, isBlank c = false) : trim cs = cs := by
  have hleft : ∀ {cs : List Char}, (∀ c ∈ cs.head?, isBlank c = false) → trimLeft cs = cs := by
    intro cs h
    cases cs with
    | nil => rfl
    | cons c cs => exact List.dropWhile_cons_of_neg (by simp [h c rfl])
  rw [trim, hleft hfirst, hleft (by rwa [List.head?_reverse]), List.reverse_reverse]

/-- **Only a text of blanks trims to nothing.** -/
theorem trim_eq_nil_iff (cs : List Char) : trim cs = [] ↔ ∀ c ∈ cs, isBlank c = true := by
  rw [← trimLeft_eq_nil_iff cs, trim, List.reverse_eq_nil_iff]
  constructor
  · intro h
    rw [trimLeft_eq_nil_iff] at h
    rw [← trimLeft_trimLeft]
    exact (trimLeft_eq_nil_iff _).mpr fun c hc => h c (List.mem_reverse.mpr hc)
  · intro h
    rw [h]
    rfl

end RecordQuery.Text
