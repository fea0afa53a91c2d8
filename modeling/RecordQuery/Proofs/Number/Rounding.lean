import Mathlib.Algebra.Group.Nat.Defs
import Mathlib.Tactic.SplitIfs
import RecordQuery.Number.Binary64

/-!
# Integers as binary64 numbers

Going from an integer to the nearest binary64 number keeps the order, but not strictly:
beyond `2 ^ 53` different integers have one number in common. So the numbers of two
integers stand to each other as the integers do, unless the integers differ and the numbers
do not (`compare?_ofInt`).

Up to `2 ^ 53` the number of an integer has its exact magnitude (`scaled_roundRatio`), and no two
integers share one (`eq_of_ofInt_eq`).
-/

namespace RecordQuery.Binary64

/-! ## Rounding a quotient -/

/-- A quotient is rounded to the whole number below it or to the one above. -/
theorem roundDiv_bounds (num den : Nat) :
    num / den ≤ roundDiv num den ∧ roundDiv num den ≤ num / den + 1 := by
  unfold roundDiv
  dsimp only
  split_ifs <;> omega

/-- **Rounding keeps the order.** -/
theorem roundDiv_mono {a b : Nat} (den : Nat) (h : a ≤ b) : roundDiv a den ≤ roundDiv b den := by
  rcases Nat.lt_or_eq_of_le (Nat.div_le_div_right (c := den) h) with hlt | heq
  · have ha := (roundDiv_bounds a den).2
    have hb := (roundDiv_bounds b den).1
    omega
  · -- the same quotient, so the remainders decide
    have ha := Nat.div_add_mod a den
    have hb := Nat.div_add_mod b den
    rw [heq] at ha
    have hrest : a % den ≤ b % den := by omega
    unfold roundDiv
    dsimp only
    rw [heq]
    split_ifs <;> omega

/-- A quotient without a remainder is not rounded. -/
theorem roundDiv_mul {den : Nat} (q : Nat) (hden : 0 < den) : roundDiv (q * den) den = q := by
  unfold roundDiv
  simp [Nat.mul_mod_left, Nat.mul_div_cancel q hden, hden]

/-! ## Significands and units -/

theorem span_eq : span = 2 ^ 52 := rfl

/-- The unit of a fraction of which these are the whole steps. -/
def unitFor (steps : Nat) : Nat := Nat.log2 steps - 52

theorem unitFor_mono {a b : Nat} (h : a ≤ b) : unitFor a ≤ unitFor b := by
  refine Nat.sub_le_sub_right ?_ 52
  rcases Nat.eq_zero_or_pos a with rfl | ha
  · exact Nat.zero_le _
  · exact (Nat.le_log2 (by omega)).mpr (Nat.le_trans (Nat.log2_self_le (by omega)) h)

/-- The rank of a fraction, from its significand and its unit. -/
theorem roundRatio_eq (num den : Nat) : roundRatio num den
    = min (roundDiv (num * one) (den * 2 ^ unitFor (num * one / den))
      + unitFor (num * one / den) * span) top := rfl

/-- **The significand fits**: it is at most `2 ^ 53`, and at least `2 ^ 52` but in the least
unit. -/
theorem roundDiv_span (steps den : Nat) :
    roundDiv steps (den * 2 ^ unitFor (steps / den)) ≤ 2 * span
      ∧ (unitFor (steps / den) = 0 ∨ span ≤ roundDiv steps (den * 2 ^ unitFor (steps / den))) := by
  have hspan := span_eq
  obtain ⟨hlow, hhigh⟩ := roundDiv_bounds steps (den * 2 ^ unitFor (steps / den))
  rw [← Nat.div_div_eq_div_mul] at hlow hhigh
  have hunit : unitFor (steps / den) = Nat.log2 (steps / den) - 52 := rfl
  generalize steps / den = x at *
  generalize unitFor x = unit at *
  constructor
  · have hlt : x / 2 ^ unit < 2 ^ 53 := by
      rw [Nat.div_lt_iff_lt_mul (Nat.two_pow_pos unit), ← Nat.pow_add]
      exact Nat.lt_of_lt_of_le Nat.lt_log2_self (Nat.pow_le_pow_right (by decide) (by omega))
    omega
  · rcases Nat.eq_zero_or_pos unit with h | h
    · exact Or.inl h
    · have hx : x ≠ 0 := by
        rintro rfl
        simp at hunit
        omega
      refine Or.inr (Nat.le_trans ?_ hlow)
      rw [hspan, Nat.le_div_iff_mul_le (Nat.two_pow_pos unit), ← Nat.pow_add]
      exact Nat.le_trans (Nat.pow_le_pow_right (by decide) (by omega)) (Nat.log2_self_le hx)

/-- **The nearest magnitude to a greater fraction is not smaller.** In a greater unit the least
significand stands for at least as much as the greatest one of a smaller unit. -/
theorem roundRatio_mono {a b : Nat} (den : Nat) (h : a ≤ b) :
    roundRatio a den ≤ roundRatio b den := by
  have hsteps : a * one ≤ b * one := Nat.mul_le_mul_right one h
  have hunit := unitFor_mono (Nat.div_le_div_right (c := den) hsteps)
  obtain ⟨hmost, -⟩ := roundDiv_span (a * one) den
  obtain ⟨-, hleast⟩ := roundDiv_span (b * one) den
  have hranks :
      roundDiv (a * one) (den * 2 ^ unitFor (a * one / den)) + unitFor (a * one / den) * span
        ≤ roundDiv (b * one) (den * 2 ^ unitFor (b * one / den))
          + unitFor (b * one / den) * span := by
    rcases Nat.lt_or_eq_of_le hunit with hlt | heq
    · have hspans : (unitFor (a * one / den) + 1) * span ≤ unitFor (b * one / den) * span :=
        Nat.mul_le_mul_right span hlt
      rw [Nat.succ_mul] at hspans
      omega
    · rw [heq]
      exact Nat.add_le_add_right (roundDiv_mono _ hsteps) _
  rw [roundRatio_eq, roundRatio_eq]
  exact Nat.le_min.mpr ⟨Nat.le_trans (Nat.min_le_left _ _) hranks, Nat.min_le_right _ _⟩

theorem roundRatio_le_top (num den : Nat) : roundRatio num den ≤ top := Nat.min_le_right _ _

/-- The magnitude of a significand in a unit. A significand of `2 ^ 53` is the least
one of the next unit. -/
theorem scaled_add_mul {q unit : Nat} (hq : q ≤ 2 * span) (h : unit = 0 ∨ span ≤ q) :
    scaled (q + unit * span) = q * 2 ^ unit := by
  have hspan : 0 < span := by
    rw [span_eq]
    exact Nat.two_pow_pos 52
  have hscaled : scaled (q + unit * span)
      = (q + unit * span - ((q / span + unit) - 1) * span) * 2 ^ ((q / span + unit) - 1) := by
    unfold scaled significandOf unitOf
    rw [Nat.add_mul_div_right q unit hspan]
    rfl
  rw [hscaled]
  by_cases hcarry : q = 2 * span
  · subst hcarry
    have hunit : 2 * span / span + unit - 1 = unit + 1 := by
      rw [Nat.mul_div_cancel _ hspan]
      omega
    have hrest : 2 * span + unit * span - (unit + 1) * span = span := by
      have := Nat.add_one_mul unit span
      omega
    rw [hunit, hrest, Nat.pow_succ, Nat.mul_comm (2 ^ unit) 2, ← Nat.mul_assoc, Nat.mul_comm span 2]
  · have hunit : q / span + unit - 1 = unit := by
      rcases Nat.lt_or_ge q span with hlt | hge
      · rw [Nat.div_eq_of_lt hlt]
        omega
      · have hone : q / span = 1 := Nat.div_eq_of_lt_le (by omega) (by omega)
        omega
    rw [hunit, Nat.add_sub_cancel]

/-- An integer up to `2 ^ 53` has a whole number of units. -/
theorem two_pow_unitFor_dvd {n k : Nat} (hn : n ≤ 2 ^ 53) (hk : 52 ≤ k) :
    unitFor (n * 2 ^ k) ≤ k + 1 ∧ 2 ^ unitFor (n * 2 ^ k) ∣ n * 2 ^ k := by
  rcases Nat.lt_or_eq_of_le hn with hlt | rfl
  · have hunit : unitFor (n * 2 ^ k) ≤ k := by
      rcases Nat.eq_zero_or_pos n with rfl | hpos
      · simp [unitFor]
      · have hne : n * 2 ^ k ≠ 0 := Nat.mul_ne_zero (by omega) (Nat.ne_of_gt (Nat.two_pow_pos k))
        have hlog : Nat.log2 (n * 2 ^ k) < k + 53 := by
          rw [Nat.log2_lt hne, Nat.pow_add, Nat.mul_comm n]
          exact Nat.mul_lt_mul_of_pos_left hlt (Nat.two_pow_pos k)
        unfold unitFor
        omega
    exact ⟨by omega, Nat.dvd_mul_left_of_dvd (Nat.pow_dvd_pow 2 hunit) n⟩
  · have hunit : unitFor (2 ^ 53 * 2 ^ k) = k + 1 := by
      rw [← Nat.pow_add, unitFor, Nat.log2_two_pow]
      omega
    rw [hunit, ← Nat.pow_add]
    exact ⟨Nat.le_refl _, Nat.pow_dvd_pow 2 (by omega)⟩

/-- One has a power of two as its number of steps. -/
theorem exists_one_eq_two_pow : ∃ k, 52 ≤ k ∧ k ≤ 1074 ∧ one = 2 ^ k := by
  unfold one
  generalize h : 1074 = k
  exact ⟨k, by omega, by omega, rfl⟩

/-- **Up to `2 ^ 53` an integer has its exact magnitude.** -/
theorem scaled_roundRatio {n : Nat} (hn : n ≤ 2 ^ 53) : scaled (roundRatio n 1) = n * one := by
  obtain ⟨k, hleast, hgreatest, hone⟩ := exists_one_eq_two_pow
  obtain ⟨hunit, q, hq⟩ := two_pow_unitFor_dvd hn hleast
  obtain ⟨hmost, hnormal⟩ := roundDiv_span (n * one) 1
  have hrank := roundRatio_eq n 1
  rw [Nat.div_one, Nat.one_mul, hone] at hmost hnormal hrank
  have hround : roundDiv (n * 2 ^ k) (2 ^ unitFor (n * 2 ^ k)) = q := by
    conv => lhs; arg 1; rw [hq, Nat.mul_comm]
    exact roundDiv_mul q (Nat.two_pow_pos _)
  rw [hround] at hmost hnormal hrank
  have hfinite : q + unitFor (n * 2 ^ k) * span ≤ top := by
    have htop : top = 2047 * span := rfl
    have hspans : unitFor (n * 2 ^ k) * span ≤ (k + 1) * span := Nat.mul_le_mul_right span hunit
    have hall : (k + 1) * span ≤ 1075 * span := Nat.mul_le_mul_right span (by omega)
    omega
  rw [hrank, Nat.min_eq_left hfinite, scaled_add_mul hmost hnormal, Nat.mul_comm, hone, ← hq]

/-- Only zero becomes zero. -/
theorem roundRatio_pos {n : Nat} (hn : 0 < n) : 0 < roundRatio n 1 := by
  have hone : 0 < roundRatio 1 1 := by
    refine Nat.pos_of_ne_zero fun hzero => ?_
    obtain ⟨k, -, -, hk⟩ := exists_one_eq_two_pow
    have hscaled : scaled (roundRatio 1 1) = 1 * one := scaled_roundRatio (by decide)
    rw [hzero, hk, Nat.one_mul] at hscaled
    exact absurd hscaled (Nat.ne_of_lt (Nat.two_pow_pos k))
  exact Nat.lt_of_lt_of_le hone (roundRatio_mono 1 hn)

/-! ## Integers -/

/-- The place of an integer's number in the order. -/
def place (n : Int) : Int := if n < 0 then -(roundRatio n.natAbs 1 : Int) else roundRatio n.natAbs 1

theorem key?_ofInt (n : Int) : (ofInt n).key? = some (place n) := by
  have hmin : min (roundRatio n.natAbs 1) top = roundRatio n.natAbs 1 :=
    Nat.min_eq_left (roundRatio_le_top _ _)
  show some (if decide (n < 0) = true then -((min (roundRatio n.natAbs 1) top : Nat) : Int)
    else (min (roundRatio n.natAbs 1) top : Nat)) = _
  simp only [hmin, decide_eq_true_eq, place]

/-- **The numbers of integers are ordered as the integers**, but not strictly. -/
theorem place_mono {m n : Int} (h : m ≤ n) : place m ≤ place n := by
  have hnat : ∀ {a b : Nat}, a ≤ b → (roundRatio a 1 : Int) ≤ roundRatio b 1 :=
    fun h => Int.ofNat_le.mpr (roundRatio_mono 1 h)
  unfold place
  split_ifs with hm hn hn
  · exact Int.neg_le_neg (hnat (by omega))
  · omega
  · omega
  · exact hnat (by omega)

/-- Integers with one place have one sign, and magnitudes of one rank. -/
theorem roundRatio_eq_of_place_eq {m n : Int} (h : place m = place n) :
    (m < 0 ↔ n < 0) ∧ roundRatio m.natAbs 1 = roundRatio n.natAbs 1 := by
  have hpos : ∀ {k : Int}, k < 0 → 0 < roundRatio k.natAbs 1 := fun hk => roundRatio_pos (by omega)
  unfold place at h
  split_ifs at h with hm hn hn
  · exact ⟨iff_of_true hm hn, by omega⟩
  · have := hpos hm
    omega
  · have := hpos hn
    omega
  · exact ⟨iff_of_false hm hn, by omega⟩

theorem ofInt_eq_of_place_eq {m n : Int} (h : place m = place n) : ofInt m = ofInt n := by
  obtain ⟨hsign, hrank⟩ := roundRatio_eq_of_place_eq h
  show ofRank (decide (m < 0)) (roundRatio m.natAbs 1)
    = ofRank (decide (n < 0)) (roundRatio n.natAbs 1)
  rw [hrank, decide_eq_decide.mpr hsign]

theorem place_eq_of_ofInt_eq {m n : Int} (h : ofInt m = ofInt n) : place m = place n := by
  have hkeys := congrArg key? h
  rw [key?_ofInt, key?_ofInt] at hkeys
  exact Option.some.inj hkeys

/-- **The numbers of two integers stand to each other as the integers do**, unless the integers
differ and have one number in common. -/
theorem compare?_ofInt {m n : Int} (h : ofInt m = ofInt n → m = n) :
    (ofInt m).compare? (ofInt n) = some (compare m n) := by
  have hne : m ≠ n → place m ≠ place n := fun hne heq => hne (h (ofInt_eq_of_place_eq heq))
  unfold compare?
  rw [key?_ofInt, key?_ofInt]
  refine congrArg some ?_
  rcases Int.lt_trichotomy m n with hlt | rfl | hgt
  · have := place_mono (Int.le_of_lt hlt)
    have := hne (Int.ne_of_lt hlt)
    rw [Int.compare_eq_lt.mpr hlt, Int.compare_eq_lt]
    omega
  · rw [Int.compare_eq_eq.mpr rfl, Int.compare_eq_eq.mpr rfl]
  · have := place_mono (Int.le_of_lt hgt)
    have := hne (Int.ne_of_gt hgt)
    rw [Int.compare_eq_gt.mpr hgt, Int.compare_eq_gt]
    omega

/-- **Up to `2 ^ 53` no two integers have one number in common.** -/
theorem eq_of_ofInt_eq {m n : Int} (hm : m.natAbs ≤ 2 ^ 53) (hn : n.natAbs ≤ 2 ^ 53)
    (h : ofInt m = ofInt n) :
    m = n := by
  obtain ⟨hsign, hrank⟩ := roundRatio_eq_of_place_eq (place_eq_of_ofInt_eq h)
  have hscaled := congrArg scaled hrank
  rw [scaled_roundRatio hm, scaled_roundRatio hn] at hscaled
  obtain ⟨k, -, -, hone⟩ := exists_one_eq_two_pow
  have habs : m.natAbs = n.natAbs := Nat.eq_of_mul_eq_mul_right (hone ▸ Nat.two_pow_pos k) hscaled
  omega

end RecordQuery.Binary64
