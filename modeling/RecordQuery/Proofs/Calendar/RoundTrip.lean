import Mathlib.Algebra.Group.Nat.Defs
import Mathlib.Data.List.TakeWhile
import RecordQuery.Calendar.Text

/-!
# Dates and times are read back

A date that is written is read as the date again, whatever its year (`readDate?_text`), and so is
a datetime that has no fraction (`readDateTime?_text`): its text does not show one. Every part is
written with its full width, so a reader that takes that many digits takes the part and nothing
more; a year with a sign is taken up to the first character that is no digit.

Of the five layouts of a datetime the written text has the second one, and the first one, which
asks for a time zone, refuses it.
-/

namespace RecordQuery

/-! ## Padded digits -/

section Padded

variable {width n : Nat}

theorem isDigit_of_mem_paddedDigits {c : Char} (hc : c ∈ paddedDigits width n) :
    c.isDigit = true := by
  rcases List.mem_append.mp hc with hc | hc
  · obtain ⟨-, rfl⟩ := List.mem_replicate.mp hc
    rfl
  · exact isDigit_of_mem_digitsOf hc

/-- Zeros in front do not change the number. -/
theorem ofDigits_paddedDigits (width n : Nat) : ofDigits (paddedDigits width n) = n := by
  have hzeros : ∀ (k : Nat) (cs : List Char),
      ofDigits (List.replicate k '0' ++ cs) = ofDigits cs := by
    intro k cs
    induction k with
    | zero => rfl
    | succ k ih =>
      unfold ofDigits at ih ⊢
      rw [List.replicate_succ, List.cons_append, Nat.ofDigitChars_cons]
      exact ih
  unfold paddedDigits
  rw [hzeros, ofDigits_digitsOf]

/-- A number that fits its width takes all of it. -/
theorem length_paddedDigits (hwidth : 0 < width) (hn : n < 10 ^ width) :
    (paddedDigits width n).length = width := by
  have hlength : (digitsOf n).length ≤ width :=
    (Nat.length_toDigits_le_iff (by decide) hwidth).mpr hn
  unfold paddedDigits
  rw [List.length_append, List.length_replicate]
  omega

theorem paddedDigits_ne_nil (width n : Nat) : paddedDigits width n ≠ [] := by
  unfold paddedDigits
  exact List.append_ne_nil_of_right_ne_nil _ Nat.toDigits_ne_nil

/-- The first one of them. -/
theorem exists_paddedDigits_eq_cons (width n : Nat) :
    ∃ d ds, paddedDigits width n = d :: ds ∧ d.isDigit = true := by
  obtain ⟨d, ds, hcons⟩ := List.exists_cons_of_ne_nil (paddedDigits_ne_nil width n)
  exact ⟨d, ds, hcons, isDigit_of_mem_paddedDigits (hcons ▸ List.mem_cons_self)⟩

end Padded

/-- No digit is a blank. -/
theorem isBlank_of_isDigit {c : Char} (hc : c.isDigit = true) : Text.isBlank c = false := by
  rw [Char.isDigit_iff_toNat] at hc
  simp only [Char.reduceToNat] at hc
  exact Text.isBlank_of_ascii (by omega) (by omega)

theorem trimLeft_of_isDigit {c : Char} (hc : c.isDigit = true) (cs : List Char) :
    Text.trimLeft (c :: cs) = c :: cs :=
  List.dropWhile_cons_of_neg (by simp [isBlank_of_isDigit hc])

/-- There are no blanks in front of padded digits. -/
theorem trimLeft_paddedDigits (width n : Nat) (rest : List Char) :
    Text.trimLeft (paddedDigits width n ++ rest) = paddedDigits width n ++ rest := by
  obtain ⟨d, ds, hcons, hd⟩ := exists_paddedDigits_eq_cons width n
  rw [hcons]
  exact trimLeft_of_isDigit hd _

/-- A month has no more than 31 days, and only the months of a year have any. -/
theorem daysInMonth_bounds (year : Int) (month : Nat) :
    daysInMonth year month ≤ 31 ∧ (0 < daysInMonth year month → month ≤ 12) := by
  unfold daysInMonth
  split
  all_goals first
    | exact ⟨by decide, fun _ => by decide⟩
    | skip
  · exact ⟨by split <;> decide, fun _ => by decide⟩
  · exact ⟨by decide, nofun⟩

/-- **The month and the day of a date have two digits.** -/
theorem Date.two_digits (d : Date) : d.month < 100 ∧ d.day < 100 := by
  have hvalid := d.valid
  obtain ⟨hdays, hmonth⟩ := daysInMonth_bounds d.year d.month
  simp only [dayExists, Bool.and_eq_true, decide_eq_true_eq] at hvalid
  omega

/-- **The parts of a time of day have two digits.** -/
theorem DateTime.two_digits (t : DateTime) : t.hour < 100 ∧ t.minute < 100 ∧ t.second < 100 := by
  have hvalid := t.valid
  simp only [timeExists, Bool.and_eq_true, decide_eq_true_eq] at hvalid
  omega

namespace Reading

/-! ## Parts -/

/-- **Digits are read up to the limit**, or up to a character that is none. -/
theorem digits?_append {limit : Nat} {ds rest : List Char} (hds : ∀ c ∈ ds, c.isDigit = true)
    (hne : ds ≠ [])
    (hlimit : ds.length = limit ∨ ds.length ≤ limit ∧ ∀ c ∈ rest.head?, c.isDigit = false) :
    digits? limit (ds ++ rest) = some (ofDigits ds, rest) := by
  have htake : ((ds ++ rest).take limit).takeWhile Char.isDigit = ds := by
    rcases hlimit with rfl | ⟨hle, hrest⟩
    · rw [List.take_left', List.takeWhile_eq_self_iff.mpr hds]
      rfl
    · have hnone : (rest.take (limit - ds.length)).takeWhile Char.isDigit = [] := by
        cases rest with
        | nil => simp
        | cons c rest =>
          have hc : c.isDigit = false := hrest c rfl
          cases limit - ds.length <;> simp [hc]
      rw [List.take_append, List.take_of_length_le hle, List.takeWhile_append_of_pos hds, hnone,
        List.append_nil]
  unfold digits?
  dsimp only
  rw [htake, List.drop_left', if_neg (by simpa using hne)]
  rfl

/-- **A part of two digits is read back.** -/
theorem part?_paddedDigits {n : Nat} (hn : n < 100) (rest : List Char) :
    part? (paddedDigits 2 n ++ rest) = some (n, rest) := by
  unfold part?
  rw [trimLeft_paddedDigits,
    digits?_append (fun _ => isDigit_of_mem_paddedDigits) (paddedDigits_ne_nil 2 n)
    (Or.inl (length_paddedDigits (by decide) hn)), ofDigits_paddedDigits]

/-- **A year is read back** up to a character that is no digit. -/
theorem year?_yearText (year : Int) {rest : List Char}
    (hrest : ∀ c ∈ rest.head?, c.isDigit = false) :
    year? (yearText year ++ rest) = some (year, rest) := by
  obtain ⟨d, ds, hcons, hd⟩ := exists_paddedDigits_eq_cons 4 year.natAbs
  have hne : paddedDigits 4 year.natAbs ≠ [] := paddedDigits_ne_nil 4 year.natAbs
  have hdigits : ∀ c ∈ paddedDigits 4 year.natAbs, c.isDigit = true :=
    fun _ => isDigit_of_mem_paddedDigits
  have hsigned :
      digits? (paddedDigits 4 year.natAbs ++ rest).length (paddedDigits 4 year.natAbs ++ rest)
        = some (year.natAbs, rest) := by
    rw [digits?_append hdigits hne (Or.inr ⟨by simp, hrest⟩), ofDigits_paddedDigits]
  unfold yearText
  split
  · rename_i hyear
    have hread : digits? 4 (paddedDigits 4 year.natAbs ++ rest) = some (year.natAbs, rest) := by
      rw [digits?_append hdigits hne (Or.inl (length_paddedDigits (by decide) (by omega))),
        ofDigits_paddedDigits]
    unfold year?
    rw [trimLeft_paddedDigits]
    split
    -- a digit is no sign
    case h_1 h | h_2 h =>
      rw [hcons] at h
      exact absurd hd ((List.cons.inj h).1 ▸ by decide)
    case h_3 =>
      rw [hread]
      show some ((year.natAbs : Int), rest) = _
      rw [Int.natAbs_of_nonneg hyear.1]
  · split
    · rename_i hneg
      refine (congrArg (Option.map _) hsigned).trans ?_
      show some (-(year.natAbs : Int), rest) = _
      rw [Int.ofNat_natAbs_of_nonpos (Int.le_of_lt hneg), Int.neg_neg]
    · rename_i hneg
      refine (congrArg (Option.map _) hsigned).trans ?_
      show some ((year.natAbs : Int), rest) = _
      rw [Int.natAbs_of_nonneg (Int.not_lt.mp hneg)]

/-! ## Dates and times -/

theorem char?_cons (c : Char) (rest : List Char) : char? c (c :: rest) = some rest := if_pos rfl

/-- **A date is read back**, whatever follows it. -/
theorem date?_text (d : Date) (rest : List Char) : date? (d.text ++ rest) = some (d, rest) := by
  obtain ⟨hmonth, hday⟩ := d.two_digits
  have hyear : ∀ rest : List Char,
      year? (yearText d.year ++ '-' :: rest) = some (d.year, '-' :: rest) := by
    refine fun rest => year?_yearText d.year fun c hc => ?_
    obtain rfl : '-' = c := Option.some.inj hc
    rfl
  have hparts : Date.ofParts? d.year d.month d.day = some d := dif_pos d.valid
  unfold date? Date.text
  simp only [List.append_assoc, List.cons_append, hyear, char?_cons, part?_paddedDigits hmonth,
    part?_paddedDigits hday, hparts, Option.bind_eq_bind, Option.bind_some]
  rfl

/-- **A time of day is read back.** -/
theorem clock?_clockText {t : DateTime} (ht : t.fraction = 0) :
    clock? t.date t.clockText = some t := by
  obtain ⟨hhour, hminute, hsecond⟩ := t.two_digits
  have hlast : part? (paddedDigits 2 t.second) = some (t.second, []) := by
    have := part?_paddedDigits hsecond []
    rwa [List.append_nil] at this
  have hparts : DateTime.ofParts? t.date t.hour t.minute t.second 0 = some t := by
    have hvalid := t.valid
    rw [ht] at hvalid
    refine (dif_pos hvalid).trans ?_
    obtain ⟨date, hour, minute, second, fraction, _⟩ := t
    obtain rfl : fraction = 0 := ht
    rfl
  unfold clock? DateTime.clockText
  simp only [List.append_assoc, List.cons_append, char?_cons, part?_paddedDigits hhour,
    part?_paddedDigits hminute, hlast, Option.bind_eq_bind, Option.bind_some]
  exact hparts

/-- A datetime is written in the second layout. -/
theorem spaced?_text {t : DateTime} (ht : t.fraction = 0) : spaced? t.text = some t := by
  have htrim : Text.trimLeft (' ' :: t.clockText) = t.clockText := by
    have hblank : Text.trimLeft (' ' :: t.clockText) = Text.trimLeft t.clockText :=
      List.dropWhile_cons_of_pos (by decide)
    rw [hblank]
    unfold DateTime.clockText
    rw [List.append_assoc, trimLeft_paddedDigits]
  unfold spaced? DateTime.text
  rw [date?_text]
  show clock? t.date (Text.trimLeft (' ' :: t.clockText)) = some t
  rw [htrim, clock?_clockText ht]

/-- Exactly as many digits as a number is padded to. -/
theorem exactly?_paddedDigits {width n : Nat} (hwidth : 0 < width) (hn : n < 10 ^ width)
    (rest : List Char) :
    exactly? width (paddedDigits width n ++ rest) = some (n, rest) := by
  have hlength := length_paddedDigits hwidth hn
  have hall : (paddedDigits width n).all Char.isDigit = true :=
    List.all_eq_true.mpr fun _ => isDigit_of_mem_paddedDigits
  unfold exactly?
  rw [List.take_left' hlength, List.drop_left' hlength]
  dsimp only
  rw [if_pos ⟨hlength, hall⟩, ofDigits_paddedDigits]

/-- A point is followed by digits, of which nine count. -/
theorem fraction?_point (rest : List Char) :
    fraction? ('.' :: rest) =
      if (rest.takeWhile Char.isDigit).isEmpty then none
      else
        some (ofDigits ((rest.takeWhile Char.isDigit).take 9)
            * Nat.pow 10 (9 - ((rest.takeWhile Char.isDigit).take 9).length),
          rest.dropWhile Char.isDigit) := rfl

/-- A fraction of at most nine digits is read back. -/
theorem fraction?_paddedDigits {width n : Nat} (hwidth : 0 < width) (hnine : width ≤ 9)
    (hn : n < 10 ^ width) :
    fraction? ('.' :: paddedDigits width n) = some (n * Nat.pow 10 (9 - width), []) := by
  have hdigits : ∀ c ∈ paddedDigits width n, c.isDigit = true :=
    fun _ => isDigit_of_mem_paddedDigits
  have hlength := length_paddedDigits hwidth hn
  have hne : (paddedDigits width n).isEmpty = false := by simpa using paddedDigits_ne_nil width n
  rw [fraction?_point, List.takeWhile_eq_self_iff.mpr hdigits,
    List.dropWhile_eq_nil_iff.mpr hdigits, hne, if_neg Bool.false_ne_true,
    List.take_of_length_le (by omega), hlength, ofDigits_paddedDigits]

/-- **A fraction of a second is read back**, whichever number of digits it is written with. -/
theorem fraction?_fractionText {n : Nat} (hn : n < nanosecondsPerSecond) :
    fraction? (fractionText n) = some (n, []) := by
  unfold nanosecondsPerSecond at hn
  unfold fractionText
  split
  · rename_i hzero
    rw [hzero]
    rfl
  split
  · rename_i hmillis
    rw [fraction?_paddedDigits (by decide) (by decide) (by omega)]
    exact congrArg (fun n => some (n, [])) (Nat.div_mul_cancel (Nat.dvd_of_mod_eq_zero hmillis))
  split
  · rename_i hmicros
    rw [fraction?_paddedDigits (by decide) (by decide) (by omega)]
    exact congrArg (fun n => some (n, [])) (Nat.div_mul_cancel (Nat.dvd_of_mod_eq_zero hmicros))
  · rw [fraction?_paddedDigits (by decide) (by decide) (by omega)]
    exact congrArg (fun n => some (n, [])) (Nat.mul_one n)

/-- **The Internet form asks for a time zone**, which a datetime is written without. -/
theorem internet?_text (t : DateTime) : internet? t.text = none := by
  obtain ⟨hmonth, hday⟩ := t.date.two_digits
  obtain ⟨hhour, hminute, hsecond⟩ := t.two_digits
  have hpart : ∀ {n : Nat} (rest : List Char), n < 100 →
      exactly? 2 (paddedDigits 2 n ++ rest) = some (n, rest) :=
    fun rest hn => exactly?_paddedDigits (by decide) hn rest
  have hlast : exactly? 2 (paddedDigits 2 t.second) = some (t.second, []) := by
    have := hpart [] hsecond
    rwa [List.append_nil] at this
  by_cases hyear : 0 ≤ t.date.year ∧ t.date.year ≤ 9999
  · -- every part has its width, and then the text ends
    have hfour : ∀ rest, exactly? 4 (paddedDigits 4 t.date.year.natAbs ++ rest)
        = some (t.date.year.natAbs, rest) := exactly?_paddedDigits (by decide) (by omega)
    unfold internet? DateTime.text Date.text yearText DateTime.clockText
    simp only [if_pos hyear, List.append_assoc, List.cons_append, hfour, char?_cons, hpart _ hmonth,
      hpart _ hday, hpart _ hhour, hpart _ hminute, hlast, Option.bind_eq_bind, Option.bind_some]
    rfl
  · -- a sign is no digit
    have hfirst : exactly? 4 t.text = none := by
      have hsign : (if t.date.year < 0 then '-' else '+').isDigit = false := by split <;> decide
      unfold DateTime.text Date.text yearText exactly?
      simp [if_neg hyear, hsign]
    unfold internet?
    rw [hfirst]
    rfl

end Reading

/-! ## Whole texts -/

/-- The text of a date begins with a sign or a digit. -/
theorem head_dateText (d : Date) (rest : List Char) :
    ∀ c ∈ (d.text ++ rest).head?, Text.isBlank c = false := by
  obtain ⟨digit, ds, hcons, hdigit⟩ := exists_paddedDigits_eq_cons 4 d.year.natAbs
  unfold Date.text yearText
  rw [hcons]
  intro c hc
  split at hc
  · obtain rfl : digit = c := Option.some.inj hc
    exact isBlank_of_isDigit hdigit
  · obtain rfl := Option.some.inj hc
    split <;> decide

/-- A text that ends with padded digits ends with a digit. -/
theorem getLast_append_paddedDigits (cs : List Char) (c : Char) (width n : Nat) :
    ∀ d ∈ (cs ++ c :: paddedDigits width n).getLast?, Text.isBlank d = false := by
  intro d hd
  have hne : paddedDigits width n ≠ [] := paddedDigits_ne_nil width n
  rw [List.append_cons, List.getLast?_append, List.getLast?_eq_some_getLast hne,
    Option.some_or] at hd
  obtain rfl := Option.some.inj hd
  exact isBlank_of_isDigit (isDigit_of_mem_paddedDigits (List.getLast_mem hne))

/-- **A date is read back from its text.** -/
theorem readDate?_text (d : Date) : readDate? d.text = some d := by
  have hhead := head_dateText d []
  have hread := Reading.date?_text d []
  rw [List.append_nil] at hhead hread
  have htrim : Text.trim d.text = d.text :=
    Text.trim_eq_self hhead (getLast_append_paddedDigits _ _ _ _)
  unfold readDate? Reading.bareDate?
  rw [htrim, hread]
  rfl

/-- **A datetime without a fraction is read back from its text.** -/
theorem readDateTime?_text {t : DateTime} (ht : t.fraction = 0) :
    readDateTime? t.text = some t := by
  have hlast : ∀ c ∈ t.text.getLast?, Text.isBlank c = false := by
    have htext :
        t.text = t.date.text ++ ' ' :: (paddedDigits 2 t.hour ++ ':' :: paddedDigits 2 t.minute)
          ++ ':' :: paddedDigits 2 t.second := by
      simp [DateTime.text, DateTime.clockText]
    rw [htext]
    exact getLast_append_paddedDigits _ _ _ _
  have htrim : Text.trim t.text = t.text := Text.trim_eq_self (head_dateText t.date _) hlast
  unfold readDateTime? datetimeLayouts
  rw [htrim, List.findSome?_cons, Reading.internet?_text, List.findSome?_cons,
    Reading.spaced?_text ht]

end RecordQuery
