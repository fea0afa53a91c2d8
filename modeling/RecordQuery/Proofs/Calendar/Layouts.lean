import Mathlib.Data.List.TakeWhile
import RecordQuery.Proofs.Calendar.RoundTrip

/-!
# The layouts of a datetime exclude each other

No text has two of the five layouts, so it does not matter in which order they are tried
(`readDateTime?_layouts`). Four of the layouts begin with a date as it is read leniently, and the
Internet form is such a date too, for a number of full width is read leniently as the same number
(`part?_of_exactly?`). So the date and what follows it are the same whichever layout is tried, and
the layouts differ in what follows: nothing but blanks, a time that ends after the minutes, one
that ends after the seconds, such a time behind a `T`, or a time that goes on behind the seconds.

A date alone is read with blanks trimmed off both of its ends, while the others take the text as
it is. A text that is read as a date when it is trimmed is read as the same date when it is not,
followed by the blanks (`date?_of_readDate?`).
-/

namespace RecordQuery

/-- **Trimming takes blanks off the end** of what is left when the front is trimmed. -/
theorem Text.exists_trim_append (cs : List Char) :
    ∃ blanks, trimLeft cs = trim cs ++ blanks ∧ ∀ c ∈ blanks, isBlank c = true := by
  refine ⟨((trimLeft cs).reverse.takeWhile isBlank).reverse, ?_, fun c hc => ?_⟩
  · rw [trim, ← List.reverse_append]
    exact ((congrArg List.reverse List.takeWhile_append_dropWhile).trans
      (List.reverse_reverse _)).symm
  · exact List.mem_takeWhile_imp (List.mem_reverse.mp hc)

/-- Trimming twice is trimming once. -/
theorem Text.trim_trim (cs : List Char) : trim (trim cs) = trim cs := by
  have hhead : ∀ {cs : List Char}, ∀ c ∈ (trimLeft cs).head?, isBlank c = false := by
    intro cs c hc
    have h := List.head?_dropWhile_not isBlank cs
    rw [show (cs.dropWhile isBlank).head? = some c from hc] at h
    simpa using h
  refine trim_eq_self (fun c hc => ?_) (fun c hc => ?_)
  · obtain ⟨blanks, hcut, -⟩ := exists_trim_append cs
    refine @hhead cs c ?_
    rw [hcut, List.head?_append, hc]
    rfl
  · rw [trim, List.getLast?_reverse] at hc
    exact hhead c hc

namespace Reading

/-! ## What follows the parts -/

/-- **Digits are read as far as they go**, or as many as the limit allows. -/
theorem digits?_eq_some_iff {limit n : Nat} {cs rest : List Char} :
    digits? limit cs = some (n, rest)
      ↔ ∃ ds ≠ [], cs = ds ++ rest ∧ ofDigits ds = n ∧ (∀ c ∈ ds, c.isDigit = true)
        ∧ (ds.length = limit ∨ ds.length ≤ limit ∧ ∀ c ∈ rest.head?, c.isDigit = false) := by
  constructor
  · intro h
    unfold digits? at h
    dsimp only at h
    split at h
    · cases h
    rename_i hne
    obtain ⟨rfl, rfl⟩ := Prod.mk.inj (Option.some.inj h)
    rw [← List.take_takeWhile] at hne ⊢
    have hprefix := (List.take_prefix limit _).trans (List.takeWhile_prefix (l := cs) Char.isDigit)
    refine ⟨_, by simpa using hne, (List.prefix_iff_eq_append.mp hprefix).symm, rfl,
      fun c hc => List.mem_takeWhile_imp (List.mem_of_mem_take hc), ?_⟩
    rcases Nat.le_total limit (cs.takeWhile Char.isDigit).length with hle | hle
    · exact .inl (List.length_take_of_le hle)
    · -- all the digits are read, and what is left begins with none
      have hrest : cs.drop (cs.takeWhile Char.isDigit).length = cs.dropWhile Char.isDigit :=
        List.append_cancel_left ((List.prefix_iff_eq_append.mp (List.takeWhile_prefix _)).trans
          List.takeWhile_append_dropWhile.symm)
      rw [List.take_of_length_le hle, hrest]
      refine .inr ⟨hle, fun c hc => ?_⟩
      have hhead := List.head?_dropWhile_not Char.isDigit cs
      rw [hc] at hhead
      simpa using hhead
  · rintro ⟨ds, hne, rfl, rfl, hds, hlimit⟩
    exact digits?_append hds hne hlimit

/-- **What follows the digits may go on**, with anything but a digit. -/
theorem digits?_append_of_eq_some {limit n : Nat} {cs rest more : List Char}
    (h : digits? limit cs = some (n, rest)) (hmore : ∀ c ∈ more.head?, c.isDigit = false) :
    digits? limit (cs ++ more) = some (n, rest ++ more) := by
  obtain ⟨ds, hne, rfl, hn, hds, hlimit⟩ := digits?_eq_some_iff.mp h
  refine digits?_eq_some_iff.mpr ⟨ds, hne, List.append_assoc _ _ _, hn, hds,
    hlimit.imp_right fun h => ⟨h.1, ?_⟩⟩
  cases rest with
  | nil => exact hmore
  | cons c rest => exact h.2

/-- Without a limit but the length of the text, digits are read up to anything else. -/
theorem digits?_length_append {n : Nat} {cs rest more : List Char}
    (h : digits? cs.length cs = some (n, rest)) (hmore : ∀ c ∈ more.head?, c.isDigit = false) :
    digits? (cs ++ more).length (cs ++ more) = some (n, rest ++ more) := by
  obtain ⟨ds, hne, rfl, hn, hds, hlimit⟩ := digits?_eq_some_iff.mp h
  refine digits?_eq_some_iff.mpr ⟨ds, hne, List.append_assoc _ _ _, hn, hds, .inr ⟨by simp, ?_⟩⟩
  rcases hlimit with hall | ⟨-, hrest⟩
  · obtain rfl : rest = [] := by simpa using hall
    exact hmore
  · cases rest with
    | nil => exact hmore
    | cons c rest => exact hrest

/-! ## What the readers of parts accept -/

theorem char?_eq_some_iff {c : Char} {cs rest : List Char} :
    char? c cs = some rest ↔ cs = c :: rest := by
  cases cs with
  | nil => simp [char?]
  | cons d r =>
    rw [char?, Option.ite_none_right_eq_some, Option.some.injEq, List.cons.injEq]

theorem ofParts?_eq_some_iff {year : Int} {month day : Nat} {d : Date} :
    Date.ofParts? year month day = some d ↔ d.year = year ∧ d.month = month ∧ d.day = day := by
  unfold Date.ofParts?
  constructor
  · intro h
    split at h
    · obtain rfl := Option.some.inj h
      exact ⟨rfl, rfl, rfl⟩
    · cases h
  · rintro ⟨rfl, rfl, rfl⟩
    exact dif_pos d.valid

theorem timeOfParts?_eq_some_iff {date : Date} {hour minute second fraction : Nat}
    {t : DateTime} :
    DateTime.ofParts? date hour minute second fraction = some t
      ↔ t.date = date ∧ t.hour = hour ∧ t.minute = minute ∧ t.second = second
        ∧ t.fraction = fraction := by
  unfold DateTime.ofParts?
  constructor
  · intro h
    split at h
    · obtain rfl := Option.some.inj h
      exact ⟨rfl, rfl, rfl, rfl, rfl⟩
    · cases h
  · rintro ⟨rfl, rfl, rfl, rfl, rfl⟩
    exact dif_pos t.valid

/-- **A date is a year, a month and a day** with signs between them. -/
theorem date?_eq_some_iff {cs rest : List Char} {d : Date} :
    date? cs = some (d, rest) ↔ ∃ r₁ r₂, year? cs = some (d.year, '-' :: r₁)
      ∧ part? r₁ = some (d.month, '-' :: r₂) ∧ part? r₂ = some (d.day, rest) := by
  simp only [date?, Option.bind_eq_bind, Option.bind_eq_some_iff, char?_eq_some_iff,
    ofParts?_eq_some_iff, Option.pure_def, Option.some.injEq, Prod.mk.injEq, Prod.exists]
  constructor
  · rintro ⟨_, _, hyear, r₁, rfl, _, _, hmonth, r₂, rfl, _, _, hday, _, ⟨rfl, rfl, rfl⟩, rfl, rfl⟩
    exact ⟨r₁, r₂, hyear, hmonth, hday⟩
  · rintro ⟨r₁, r₂, hyear, hmonth, hday⟩
    exact ⟨_, _, hyear, r₁, rfl, _, _, hmonth, r₂, rfl, _, _, hday, d, ⟨rfl, rfl, rfl⟩, rfl, rfl⟩

/-- **A time of day with seconds** takes the rest of the text. -/
theorem clock?_eq_some_iff {cs : List Char} {date : Date} {t : DateTime} :
    clock? date cs = some t ↔ ∃ r₁ r₂, part? cs = some (t.hour, ':' :: r₁)
      ∧ part? r₁ = some (t.minute, ':' :: r₂) ∧ part? r₂ = some (t.second, [])
      ∧ t.date = date ∧ t.fraction = 0 := by
  simp only [clock?, Option.bind_eq_bind, Option.bind_eq_some_iff, char?_eq_some_iff,
    List.isEmpty_iff, Option.ite_none_right_eq_some, timeOfParts?_eq_some_iff, Prod.exists]
  constructor
  · rintro ⟨_, _, hhour, r₁, rfl, _, _, hminute, r₂, rfl, _, _, hsecond, rfl, hdate, rfl, rfl,
      rfl, hfraction⟩
    exact ⟨r₁, r₂, hhour, hminute, hsecond, hdate, hfraction⟩
  · rintro ⟨r₁, r₂, hhour, hminute, hsecond, hdate, hfraction⟩
    exact ⟨_, _, hhour, r₁, rfl, _, _, hminute, r₂, rfl, _, _, hsecond, rfl, hdate, rfl, rfl, rfl,
      hfraction⟩

/-- **A time of day without seconds** takes the rest of the text. -/
theorem shortClock?_eq_some_iff {cs : List Char} {date : Date} {t : DateTime} :
    shortClock? date cs = some t ↔ ∃ r₁, part? cs = some (t.hour, ':' :: r₁)
      ∧ part? r₁ = some (t.minute, []) ∧ t.date = date ∧ t.second = 0 ∧ t.fraction = 0 := by
  simp only [shortClock?, Option.bind_eq_bind, Option.bind_eq_some_iff, char?_eq_some_iff,
    List.isEmpty_iff, Option.ite_none_right_eq_some, timeOfParts?_eq_some_iff, Prod.exists]
  constructor
  · rintro ⟨_, _, hhour, r₁, rfl, _, _, hminute, rfl, hdate, rfl, rfl, hsecond, hfraction⟩
    exact ⟨r₁, hhour, hminute, hdate, hsecond, hfraction⟩
  · rintro ⟨r₁, hhour, hminute, hdate, hsecond, hfraction⟩
    exact ⟨_, _, hhour, r₁, rfl, _, _, hminute, rfl, hdate, rfl, rfl, hsecond, hfraction⟩

/-! ## Dates followed by more -/

theorem digits?_nil (limit : Nat) : digits? limit [] = none := by simp [digits?]

theorem trimLeft_append {cs rest : List Char} {c : Char} (h : Text.trimLeft cs = c :: rest)
    (more : List Char) :
    Text.trimLeft (cs ++ more) = c :: (rest ++ more) := by
  unfold Text.trimLeft at h ⊢
  rw [List.dropWhile_append, h]
  rfl

/-- A year is read by its first character that is no blank. -/
theorem year?_of_trimLeft {cs rest : List Char} {c : Char} (h : Text.trimLeft cs = c :: rest) :
    year? cs =
      if c = '-' then (digits? rest.length rest).map fun r => (-(r.1 : Int), r.2)
      else if c = '+' then (digits? rest.length rest).map fun r => ((r.1 : Int), r.2)
      else (digits? 4 (c :: rest)).map fun r => ((r.1 : Int), r.2) := by
  unfold year?
  rw [h]
  by_cases hminus : c = '-'
  · subst hminus
    rfl
  by_cases hplus : c = '+'
  · subst hplus
    rfl
  · rw [if_neg hminus, if_neg hplus]
    split <;> simp_all

section Append

variable {cs rest more : List Char} (hmore : ∀ c ∈ more.head?, c.isDigit = false)

include hmore

/-- A number of one or two digits may be followed by more. -/
theorem part?_append {n : Nat} (h : part? cs = some (n, rest)) :
    part? (cs ++ more) = some (n, rest ++ more) := by
  unfold part? at h ⊢
  cases hcs : Text.trimLeft cs with
  | nil => simp [hcs, digits?_nil] at h
  | cons c r =>
    rw [hcs] at h
    rw [trimLeft_append hcs]
    exact digits?_append_of_eq_some h hmore

/-- A year may be followed by more. -/
theorem year?_append {year : Int} (h : year? cs = some (year, rest)) :
    year? (cs ++ more) = some (year, rest ++ more) := by
  have hmap : ∀ (f : Nat → Int) {read readMore : Option (Nat × List Char)},
      (∀ {n r}, read = some (n, r) → readMore = some (n, r ++ more)) →
      (read.map fun r => (f r.1, r.2)) = some (year, rest) →
      (readMore.map fun r => (f r.1, r.2)) = some (year, rest ++ more) := by
    intro f read readMore hread h
    obtain ⟨⟨n, r⟩, hn, hyear⟩ := Option.map_eq_some_iff.mp h
    obtain ⟨rfl, rfl⟩ := Prod.mk.inj hyear
    rw [hread hn]
    rfl
  cases hcs : Text.trimLeft cs with
  | nil => simp [year?, hcs, digits?_nil] at h
  | cons c r =>
    rw [year?_of_trimLeft hcs] at h
    rw [year?_of_trimLeft (trimLeft_append hcs more)]
    split_ifs at h ⊢
    · exact hmap (fun n => -(n : Int)) (fun hn => digits?_length_append hn hmore) h
    · exact hmap (fun n => (n : Int)) (fun hn => digits?_length_append hn hmore) h
    · exact hmap (fun n => (n : Int)) (fun hn => digits?_append_of_eq_some hn hmore) h

/-- **A date may be followed by more.** -/
theorem date?_append {d : Date} (h : date? cs = some (d, rest)) :
    date? (cs ++ more) = some (d, rest ++ more) := by
  obtain ⟨r₁, r₂, hyear, hmonth, hday⟩ := date?_eq_some_iff.mp h
  exact date?_eq_some_iff.mpr
    ⟨r₁ ++ more, r₂ ++ more, year?_append hmore hyear, part?_append hmore hmonth,
      part?_append hmore hday⟩

end Append

theorem date?_trimLeft (cs : List Char) : date? (Text.trimLeft cs) = date? cs := by
  unfold date? year?
  rw [Text.trimLeft_trimLeft]

theorem bareDate?_eq_some_iff {cs : List Char} {d : Date} :
    bareDate? cs = some d ↔ date? cs = some (d, []) := by
  simp only [bareDate?, Option.bind_eq_bind, Option.bind_eq_some_iff, List.isEmpty_iff,
    Option.ite_none_right_eq_some, Option.some.injEq, Prod.exists]
  constructor
  · rintro ⟨_, _, hdate, rfl, rfl⟩
    exact hdate
  · exact fun hdate => ⟨_, _, hdate, rfl, rfl⟩

/-- **A text that is a date when it is trimmed** is the date and blanks. -/
theorem date?_of_readDate? {s : List Char} {d : Date} (h : readDate? s = some d) :
    ∃ blanks, date? s = some (d, blanks) ∧ ∀ c ∈ blanks, Text.isBlank c = true := by
  obtain ⟨blanks, hcut, hblanks⟩ := Text.exists_trim_append s
  refine ⟨blanks, ?_, hblanks⟩
  have hdigit : ∀ c ∈ blanks.head?, c.isDigit = false := by
    intro c hc
    have hblank := hblanks c (List.mem_of_mem_head? hc)
    by_contra hdigit
    rw [isBlank_of_isDigit (by simpa using hdigit)] at hblank
    cases hblank
  rw [← date?_trimLeft, hcut]
  exact date?_append hdigit (bareDate?_eq_some_iff.mp h)

/-! ## Numbers of full width -/

theorem exactly?_eq_some_iff {count n : Nat} {cs rest : List Char} :
    exactly? count cs = some (n, rest)
      ↔ ∃ ds, cs = ds ++ rest ∧ ofDigits ds = n ∧ (∀ c ∈ ds, c.isDigit = true)
        ∧ ds.length = count := by
  unfold exactly?
  dsimp only
  rw [Option.ite_none_right_eq_some, Option.some.injEq, Prod.mk.injEq, List.all_eq_true]
  constructor
  · rintro ⟨⟨hlength, hdigits⟩, hn, hrest⟩
    exact ⟨cs.take count, by rw [← hrest, List.take_append_drop], hn, hdigits, hlength⟩
  · rintro ⟨ds, rfl, hn, hdigits, rfl⟩
    rw [List.take_left', List.drop_left']
    all_goals first | exact ⟨⟨rfl, hdigits⟩, hn, rfl⟩ | rfl

/-- **A number of full width is read leniently too**, and there is no blank in front of it. -/
theorem digits?_of_exactly? {count n : Nat} {cs rest : List Char} (hcount : 0 < count)
    (h : exactly? count cs = some (n, rest)) :
    ∃ c r, cs = c :: r ∧ c.isDigit = true ∧ digits? count cs = some (n, rest) := by
  obtain ⟨ds, rfl, hn, hdigits, rfl⟩ := exactly?_eq_some_iff.mp h
  obtain ⟨c, ds, rfl⟩ := List.exists_cons_of_length_pos hcount
  refine ⟨c, ds ++ rest, rfl, hdigits c List.mem_cons_self, ?_⟩
  exact digits?_eq_some_iff.mpr ⟨c :: ds, List.cons_ne_nil _ _, rfl, hn, hdigits, .inl rfl⟩

theorem part?_of_exactly? {n : Nat} {cs rest : List Char} (h : exactly? 2 cs = some (n, rest)) :
    part? cs = some (n, rest) := by
  obtain ⟨c, r, rfl, hc, hread⟩ := digits?_of_exactly? (by decide) h
  rw [part?, trimLeft_of_isDigit hc, hread]

theorem year?_of_exactly? {n : Nat} {cs rest : List Char} (h : exactly? 4 cs = some (n, rest)) :
    year? cs = some ((n : Int), rest) := by
  obtain ⟨c, r, rfl, hc, hread⟩ := digits?_of_exactly? (by decide) h
  have hne : ∀ d : Char, d.isDigit = false → c ≠ d :=
    fun d hd hcd => by rw [hcd, hd] at hc; cases hc
  rw [year?_of_trimLeft (trimLeft_of_isDigit hc r), if_neg (hne '-' rfl), if_neg (hne '+' rfl),
    hread]
  rfl

/-- A time zone is never missing. -/
theorem ne_nil_of_zone? {cs rest : List Char} {fraction : Nat} {minutes : Int}
    (hfraction : fraction? cs = some (fraction, rest)) (hzone : zone? rest = some minutes) :
    cs ≠ [] := by
  rintro rfl
  obtain ⟨rfl, rfl⟩ : 0 = fraction ∧ [] = rest := by simpa [fraction?] using hfraction
  simp [zone?] at hzone

/-! ## What follows the date -/

/-- **How a text goes on behind a date.** -/
inductive Ending where
  /-- With a time and its zone. -/
  | zoned
  /-- With a time to the second. -/
  | toSecond
  /-- With a time to the minute. -/
  | toMinute
  /-- With a `T` and a time to the second. -/
  | joined
  /-- With nothing. -/
  | nothing
  deriving DecidableEq

/-- **The texts that go on like that**, by the numbers that are found in them. -/
inductive Ends : List Char → Ending → Prop where
  | zoned {c d : Char} {hour minute second : Nat} {r r₁ r₂ rest : List Char}
    (hc : isSeparator c = true)
    (hhour : part? r = some (hour, ':' :: r₁)) (hminute : part? r₁ = some (minute, ':' :: r₂))
    (hsecond : part? r₂ = some (second, d :: rest)) : Ends (c :: r) .zoned
  | toSecond {hour minute second : Nat} {r r₁ r₂ : List Char}
    (hhour : part? r = some (hour, ':' :: r₁))
    (hminute : part? r₁ = some (minute, ':' :: r₂)) (hsecond : part? r₂ = some (second, [])) :
      Ends r .toSecond
  | toMinute {hour minute : Nat} {r r₁ : List Char} (hhour : part? r = some (hour, ':' :: r₁))
    (hminute : part? r₁ = some (minute, [])) : Ends r .toMinute
  | joined {hour minute second : Nat} {r r₁ r₂ : List Char}
    (hhour : part? r = some (hour, ':' :: r₁))
    (hminute : part? r₁ = some (minute, ':' :: r₂)) (hsecond : part? r₂ = some (second, [])) :
    Ends ('T' :: r) .joined
  | nothing {r : List Char} (hr : ∀ c ∈ r, Text.isBlank c = true) : Ends r .nothing

theorem part?_trimLeft (cs : List Char) : part? (Text.trimLeft cs) = part? cs := by
  rw [part?, Text.trimLeft_trimLeft, part?]

/-- There is no number in a text of blanks. -/
theorem part?_of_blank {cs : List Char} (h : ∀ c ∈ cs, Text.isBlank c = true) :
    part? cs = none := by
  rw [part?, (Text.trimLeft_eq_nil_iff cs).mpr h, digits?_nil]

/-- A number begins with blanks and a digit, and with nothing else. -/
theorem part?_cons {c : Char} (hdigit : c.isDigit = false) (cs : List Char) :
    part? (c :: cs) = if Text.isBlank c = true then part? cs else none := by
  unfold part? Text.trimLeft
  split
  · rw [List.dropWhile_cons_of_pos ‹_›]
  · rw [List.dropWhile_cons_of_neg ‹_›]
    simp [digits?, hdigit]

/-- A separator is a letter, in front of which no number is found, or a space, which is passed
over. -/
theorem part?_separator {c : Char} (hc : isSeparator c = true) (cs : List Char) :
    part? (c :: cs) = none ∨ c ≠ 'T' ∧ part? (c :: cs) = part? cs := by
  simp only [isSeparator, Bool.or_eq_true, decide_eq_true_eq] at hc
  rcases hc with (rfl | rfl) | rfl
  · exact .inl (part?_cons (by decide) cs)
  · exact .inl (part?_cons (by decide) cs)
  · exact .inr ⟨by decide, part?_cons (by decide) cs⟩

/-- Blanks alone are no time. -/
theorem Ends.eq_nothing {r : List Char} {a : Ending} (ha : Ends r a)
    (hr : ∀ c ∈ r, Text.isBlank c = true) :
    a = .nothing := by
  cases ha with
  | nothing => rfl
  | toSecond hhour | toMinute hhour =>
    rw [part?_of_blank hr] at hhour
    cases hhour
  | zoned _ hhour | joined hhour =>
    rw [part?_of_blank fun c hc => hr c (List.mem_cons_of_mem _ hc)] at hhour
    cases hhour

/-- **A text goes on behind a date in one way.** -/
theorem Ends.unique {r : List Char} {a b : Ending} (ha : Ends r a) (hb : Ends r b) : a = b := by
  have hT : ∀ cs, part? ('T' :: cs) = none := fun cs => part?_cons (by decide) cs
  by_cases hr : ∀ c ∈ r, Text.isBlank c = true
  · rw [ha.eq_nothing hr, hb.eq_nothing hr]
  -- two times at one place begin with the same numbers, and differ in what is behind the last one
  cases ha with
  | nothing hblank => exact absurd hblank hr
  | zoned => cases hb <;> grind [part?_separator]
  | toSecond | toMinute | joined => cases hb <;> grind [part?_separator]

/-! ## The layouts -/

/-- **The layout that asks for an ending.** -/
def Ending.layout : Ending → List Char → Option DateTime
  | .zoned => internet?
  | .toSecond => spaced?
  | .toMinute => spacedShort?
  | .joined => joined?
  | .nothing => fun cs => (readDate? cs).map DateTime.midnight

/-- The endings in the order in which their layouts are tried. -/
def Ending.all : List Ending := [.zoned, .toSecond, .toMinute, .joined, .nothing]

theorem datetimeLayouts_eq : datetimeLayouts = Ending.all.map Ending.layout := rfl

/-- **The Internet form is a lenient date with a time behind it**, after which the text goes on. -/
theorem ends_of_internet? {cs : List Char} {t : DateTime} (h : internet? cs = some t) :
    ∃ d r, date? cs = some (d, r) ∧ Ends r .zoned := by
  simp only [internet?, Option.bind_eq_bind, Option.bind_eq_some_iff, char?_eq_some_iff] at h
  obtain ⟨⟨year, _⟩, hyear, r₁, rfl, ⟨month, _⟩, hmonth, r₂, rfl, ⟨day, r⟩, hday, h⟩ := h
  cases r with
  | nil => cases h
  | cons c r =>
    simp only [Bool.not_eq_true', Bool.not_eq_false, Option.ite_none_left_eq_some,
      Option.bind_eq_some_iff, char?_eq_some_iff] at h
    obtain ⟨hc, ⟨hour, _⟩, hhour, r₃, rfl, ⟨minute, _⟩, hminute, r₄, rfl, ⟨second, rest⟩, hsecond,
      ⟨fraction, zone⟩, hfraction, minutes, hzone, d, hdate, -⟩ := h
    obtain ⟨hd, rfl, rfl⟩ := ofParts?_eq_some_iff.mp hdate
    obtain ⟨c', rest, rfl⟩ := List.exists_cons_of_ne_nil (ne_nil_of_zone? hfraction hzone)
    exact ⟨d, c :: r, date?_eq_some_iff.mpr
      ⟨r₁, r₂, hd ▸ year?_of_exactly? hyear, part?_of_exactly? hmonth, part?_of_exactly? hday⟩,
      .zoned hc (part?_of_exactly? hhour) (part?_of_exactly? hminute) (part?_of_exactly? hsecond)⟩

/-- **What a layout accepts is a date with its ending.** -/
theorem Ending.ends_of_layout {a : Ending} {s : List Char} {t : DateTime}
    (h : a.layout s = some t) :
    ∃ d r, date? s = some (d, r) ∧ Ends r a := by
  cases a with
  | zoned => exact ends_of_internet? h
  | toSecond =>
    simp only [layout, spaced?, Option.bind_eq_bind, Option.bind_eq_some_iff, Prod.exists] at h
    obtain ⟨d, r, hdate, hclock⟩ := h
    obtain ⟨r₁, r₂, hhour, hminute, hsecond, -⟩ := clock?_eq_some_iff.mp hclock
    rw [part?_trimLeft] at hhour
    exact ⟨d, r, hdate, .toSecond hhour hminute hsecond⟩
  | toMinute =>
    simp only [layout, spacedShort?, Option.bind_eq_bind, Option.bind_eq_some_iff, Prod.exists] at h
    obtain ⟨d, r, hdate, hclock⟩ := h
    obtain ⟨r₁, hhour, hminute, -⟩ := shortClock?_eq_some_iff.mp hclock
    rw [part?_trimLeft] at hhour
    exact ⟨d, r, hdate, .toMinute hhour hminute⟩
  | joined =>
    simp only [layout, joined?, Option.bind_eq_bind, Option.bind_eq_some_iff, char?_eq_some_iff,
      Prod.exists] at h
    obtain ⟨d, _, hdate, r, rfl, hclock⟩ := h
    obtain ⟨r₁, r₂, hhour, hminute, hsecond, -⟩ := clock?_eq_some_iff.mp hclock
    exact ⟨d, 'T' :: r, hdate, .joined hhour hminute hsecond⟩
  | nothing =>
    obtain ⟨d, hdate, -⟩ := Option.map_eq_some_iff.mp h
    obtain ⟨blanks, hread, hblanks⟩ := date?_of_readDate? hdate
    exact ⟨d, blanks, hread, .nothing hblanks⟩

/-- **No text has two layouts.** -/
theorem Ending.eq_of_layout {a b : Ending} {s : List Char} {t u : DateTime}
    (ha : a.layout s = some t) (hb : b.layout s = some u) : a = b := by
  obtain ⟨d, r, hread, hends⟩ := ends_of_layout ha
  obtain ⟨d', r', hread', hends'⟩ := ends_of_layout hb
  obtain ⟨-, rfl⟩ := Prod.mk.inj (Option.some.inj (hread.symm.trans hread'))
  exact hends.unique hends'

end Reading

/-- **Layouts that exclude each other may be tried in any order**: the first that fits is the only
one. -/
theorem findSome?_layouts_eq_some_iff {layouts : List (List Char → Option DateTime)}
    (h : layouts.Perm datetimeLayouts) {s : List Char} {t : DateTime} :
    layouts.findSome? (fun layout => layout s) = some t
      ↔ ∃ a : Reading.Ending, a.layout s = some t := by
  have hmem : ∀ layout, layout ∈ layouts ↔ ∃ a ∈ Reading.Ending.all, a.layout = layout := by
    intro layout
    rw [h.mem_iff, Reading.datetimeLayouts_eq, List.mem_map]
  constructor
  · intro hfind
    obtain ⟨layout, hlayout, ht⟩ := List.exists_of_findSome?_eq_some hfind
    obtain ⟨a, -, rfl⟩ := (hmem layout).mp hlayout
    exact ⟨a, ht⟩
  · rintro ⟨a, ha⟩
    have hlayout : a.layout ∈ layouts := (hmem _).mpr ⟨a, by cases a <;> decide, rfl⟩
    cases hfind : layouts.findSome? fun layout => layout s with
    | none =>
      exact absurd (List.findSome?_eq_none_iff.mp hfind _ hlayout)
        (by rw [ha]; exact Option.some_ne_none t)
    | some u =>
      obtain ⟨layout, hother, hu⟩ := List.exists_of_findSome?_eq_some hfind
      obtain ⟨b, -, rfl⟩ := (hmem layout).mp hother
      obtain rfl := Reading.Ending.eq_of_layout ha hu
      rw [← ha, hu]

/-- **The layouts of a datetime exclude each other**, so they may be tried in any order; a date is
its midnight; and what is written is read back, every date as a date and every datetime without a
fraction as a datetime. -/
theorem readDateTime?_layouts :
    (datetimeLayouts.Pairwise fun a b => ∀ s, a s = none ∨ b s = none)
    ∧ (∀ layouts : List (List Char → Option DateTime), layouts.Perm datetimeLayouts →
        ∀ s, layouts.findSome? (fun layout => layout (Text.trim s)) = readDateTime? s)
    ∧ (∀ s d, readDate? s = some d → readDateTime? s = some (DateTime.midnight d))
    ∧ (∀ d : Date, readDate? d.text = some d)
    ∧ ∀ t : DateTime, t.fraction = 0 → readDateTime? t.text = some t := by
  refine ⟨?_, fun layouts hperm s => ?_, fun s d hdate => ?_, readDate?_text,
    fun t => readDateTime?_text⟩
  · rw [Reading.datetimeLayouts_eq, List.pairwise_map]
    have hdistinct : Reading.Ending.all.Pairwise fun a b => a ≠ b := by decide
    refine hdistinct.imp fun {a b} hne s => ?_
    by_contra hboth
    rw [not_or, ← ne_eq, ← ne_eq, Option.ne_none_iff_exists', Option.ne_none_iff_exists'] at hboth
    obtain ⟨⟨t, ha⟩, u, hb⟩ := hboth
    exact hne (Reading.Ending.eq_of_layout ha hb)
  · refine Option.ext fun t => ?_
    rw [readDateTime?, findSome?_layouts_eq_some_iff hperm,
      findSome?_layouts_eq_some_iff (List.Perm.refl _)]
  · refine (findSome?_layouts_eq_some_iff (List.Perm.refl _)).mpr ⟨.nothing, ?_⟩
    show (Reading.bareDate? (Text.trim (Text.trim s))).map DateTime.midnight = _
    rw [Text.trim_trim, show Reading.bareDate? (Text.trim s) = some d from hdate]
    rfl

/-- A leap day between blanks, and the last second of a year that has a leap second. -/
theorem readDateTime?_leap_day_and_second :
    let day : Date := ⟨2024, 2, 29, by decide⟩
    let second : DateTime := ⟨⟨-1, 12, 31, by decide⟩, 23, 59, 60, 0, by decide⟩
    readDate? " 2024-2-29 ".toList = some day ∧ second.fraction = 0
      ∧ readDateTime? " 2024-2-29 ".toList = some (DateTime.midnight day)
      ∧ readDateTime? "-0001-12-31 23:59:60".toList = some second := by
  intro day second
  have hday : readDate? " 2024-2-29 ".toList = some day := by decide
  have htext : second.text = "-0001-12-31 23:59:60".toList := by decide
  exact ⟨hday, rfl, readDateTime?_layouts.2.2.1 _ day hday,
    htext ▸ readDateTime?_layouts.2.2.2.2 second rfl⟩

end RecordQuery
