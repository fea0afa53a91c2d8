import RecordQuery.Proofs.Query.Tiling

/-!
# Where tokens end

A token goes as far as it can, so what follows it has a say in where it ends. It ends in the
same place in front of another rest that goes on with it no more than the first one does
(`EndsAs`): one that begins with a character of no word, or with the same letter, and that has
an exponent at its front only if the first one has. In front of such a rest a text begins with
the same token (`lexeme_of_endsAs`).

What a class of characters cuts off is one matter (`EndsAs.span`). A number takes digits twice and
an exponent, and only its length says which of these the rest could have gone on with; so the
length of what is taken is carried along.
-/

namespace RecordQuery.Lexer

/-! ## Letter case -/

/-- The lower case of an ASCII capital stands 32 places behind it. -/
theorem toNat_toLower (c : Char) :
    c.toLower.toNat = if 65 ≤ c.toNat ∧ c.toNat ≤ 90 then c.toNat + 32 else c.toNat := by
  unfold Char.toLower
  simp only [ge_iff_le, UInt32.le_iff_toNat_le, Char.toNat_val, Char.reduceToNat]
  split
  · rename_i hcapital
    show (c.val + 32).toNat = c.toNat + 32
    rw [UInt32.toNat_add, Char.toNat_val]
    exact Nat.mod_eq_of_lt (by simp; omega)
  · rfl

/-- Characters that differ in letter case alone are letters. -/
theorem eq_or_isAlpha_of_toLower_eq {c d : Char} (h : c.toLower = d.toLower) :
    c = d ∨ c.isAlpha = true ∧ d.isAlpha = true := by
  have hplace := congrArg Char.toNat h
  rw [toNat_toLower, toNat_toLower] at hplace
  rw [isAlpha_iff, isAlpha_iff, ← Char.toNat_inj]
  split at hplace <;> split at hplace <;> omega

/-- **A test that does not look at letter case.** -/
def IgnoresCase (p : Char → Bool) : Prop := ∀ c d, c.toLower = d.toLower → p c = p d

/-- A test that all letters pass or none does not look at letter case. -/
theorem ignoresCase_of_isAlpha {p : Char → Bool} {b : Bool} (hp : ∀ c, c.isAlpha = true → p c = b) :
    IgnoresCase p := by
  intro c d h
  rcases eq_or_isAlpha_of_toLower_eq h with rfl | ⟨hc, hd⟩
  · rfl
  · rw [hp c hc, hp d hd]

theorem ignoresCase_continuesWord : IgnoresCase continuesWord :=
  ignoresCase_of_isAlpha (b := true) fun c hc => by simp [continuesWord, Char.isAlphanum, hc]

theorem ignoresCase_isDigit : IgnoresCase Char.isDigit := by
  refine ignoresCase_of_isAlpha (b := false) fun c hc => ?_
  have hbounds := (isAlpha_iff c).mp hc
  rw [Bool.eq_false_iff, Ne, Char.isDigit_iff_toNat]
  simp only [Char.reduceToNat]
  omega

/-- A character that is no letter has one case. -/
theorem eq_of_toLower_eq {c d : Char} (hd : d.isAlpha = false) (h : c.toLower = d.toLower) :
    c = d := by
  rcases eq_or_isAlpha_of_toLower_eq h with rfl | ⟨-, hletter⟩
  · rfl
  · exact absurd (hd.symm.trans hletter) Bool.false_ne_true

/-! ## Rests that end a token alike -/

/-- **A rest ends every token that another one ends.** -/
structure EndsAs (r r' : List Char) : Prop where
  /-- It goes on with no word and no operator, or begins like the other one. -/
  head : ∀ d ∈ r'.head?, continuesWord d = false ∧ d ≠ '=' ∨ ∃ c ∈ r.head?, c.toLower = d.toLower
  /-- It goes on with no number. -/
  exponent : exponent r = [] → exponent r' = []

section Cut

variable {p : Char → Bool} {src r r' : List Char}

/-- A test that cuts off no more than the text stops. -/
theorem halts_of_length_le (h : ((src ++ r).takeWhile p).length ≤ src.length) : Halts p src r := by
  intro hall c hc
  obtain ⟨rest, rfl⟩ := List.head?_eq_some_iff.mp hc
  rw [List.takeWhile_append_of_pos hall, List.length_append] at h
  by_contra hpc
  rw [Bool.not_eq_false] at hpc
  rw [List.takeWhile_cons_of_pos hpc, List.length_cons] at h
  omega

/-- **Where a test stops in front of one rest, it stops in front of the other.** -/
theorem EndsAs.halts (h : EndsAs r r') (hcase : IgnoresCase p)
    (hp : ∀ d, p d = true → continuesWord d = true ∨ d = '=') (hr : Halts p src r) :
    Halts p src r' := by
  intro hall d hd
  rcases h.head d hd with ⟨hword, hequals⟩ | ⟨c, hc, hlower⟩
  · by_contra hpd
    rw [Bool.not_eq_false] at hpd
    rcases hp d hpd with hword' | rfl
    · exact absurd (hword.symm.trans hword') Bool.false_ne_true
    · exact hequals rfl
  · rw [← hcase c d hlower]
    exact hr hall c hc

/-- A rest stops a word where the other one does. -/
theorem EndsAs.stops (h : EndsAs r r') (hr : Stops r) : Stops r' := by
  have hhalts : Halts continuesWord [] r := fun _ => hr
  exact h.halts ignoresCase_continuesWord (fun _ hd => Or.inl hd) hhalts nofun

/-- **What a test cuts off is the same in front of both rests**, if it is no more than the text. -/
theorem EndsAs.span (h : EndsAs r r') (hcase : IgnoresCase p)
    (hp : ∀ d, p d = true → continuesWord d = true)
    (hle : ((src ++ r).takeWhile p).length ≤ src.length) :
    ((src ++ r).takeWhile p = src.takeWhile p ∧ (src ++ r).dropWhile p = src.dropWhile p ++ r)
      ∧ (src ++ r').takeWhile p = src.takeWhile p
        ∧ (src ++ r').dropWhile p = src.dropWhile p ++ r' := by
  have hhalts := halts_of_length_le hle
  exact ⟨span_of_halts hhalts, span_of_halts (h.halts hcase (fun d hd => Or.inl (hp d hd)) hhalts)⟩

/-- Digits in front of the rests. -/
theorem EndsAs.digits (h : EndsAs r r') (src : List Char)
    (hle : ((src ++ r).takeWhile Char.isDigit).length ≤ src.length) :
    ((src ++ r).takeWhile Char.isDigit = src.takeWhile Char.isDigit
        ∧ (src ++ r).dropWhile Char.isDigit = src.dropWhile Char.isDigit ++ r)
      ∧ (src ++ r').takeWhile Char.isDigit = src.takeWhile Char.isDigit
        ∧ (src ++ r').dropWhile Char.isDigit = src.dropWhile Char.isDigit ++ r' :=
  h.span ignoresCase_isDigit (fun _ hd => continuesWord_of_isDigit hd) hle

/-- A rest begins with a sign that is no letter only if the other one does. -/
theorem EndsAs.head_eq (h : EndsAs r r') {d : Char} (hd : d ∈ r'.head?)
    (hsign : continuesWord d = true ∨ d = '=') (hletter : d.isAlpha = false) : d ∈ r.head? := by
  rcases h.head d hd with ⟨hword, hequals⟩ | ⟨c, hc, hlower⟩
  · rcases hsign with hword' | rfl
    · exact absurd (hword.symm.trans hword') Bool.false_ne_true
    · exact absurd rfl hequals
  · exact eq_of_toLower_eq hletter hlower ▸ hc

/-! ### Numbers -/

/-- An exponent with a sign. -/
theorem exponent_sign {e s : Char} (he : e = 'e' ∨ e = 'E') (hs : s = '+' ∨ s = '-')
    (rest : List Char) :
    Lexer.exponent (e :: s :: rest) = if (rest.takeWhile Char.isDigit).isEmpty then []
      else e :: s :: rest.takeWhile Char.isDigit := by
  unfold Lexer.exponent
  simp only [he, hs, if_true]

/-- An exponent without a sign. -/
theorem exponent_digits {e s : Char} (he : e = 'e' ∨ e = 'E') (hs : ¬ (s = '+' ∨ s = '-'))
    (rest : List Char) :
    Lexer.exponent (e :: s :: rest) = if ((s :: rest).takeWhile Char.isDigit).isEmpty then []
      else e :: (s :: rest).takeWhile Char.isDigit := by
  unfold Lexer.exponent
  simp only [he, hs, if_true, if_false]

/-- An exponent has a digit. -/
theorem length_exponent_ne_one (rest : List Char) : (Lexer.exponent rest).length ≠ 1 := by
  unfold Lexer.exponent
  grind

/-- **An exponent ends alike.** -/
theorem EndsAs.exponent_append (h : EndsAs r r')
    (hlength : (Lexer.exponent (src ++ r)).length = src.length) :
    Lexer.exponent (src ++ r') = Lexer.exponent (src ++ r) := by
  match src with
  | [] =>
    have hnone : Lexer.exponent r = [] := List.length_eq_zero_iff.mp hlength
    exact (h.exponent hnone).trans hnone.symm
  | [e] => exact absurd hlength (length_exponent_ne_one _)
  | e :: s :: src =>
    simp only [List.cons_append] at hlength ⊢
    have hsome : Lexer.exponent (e :: s :: (src ++ r)) ≠ [] := by
      intro hnil
      simp [hnil] at hlength
    have he : e = 'e' ∨ e = 'E' := by
      by_contra he
      exact hsome (exponent_of_ne he _)
    by_cases hs : s = '+' ∨ s = '-'
    · rw [exponent_sign he hs] at hlength hsome
      rw [exponent_sign he hs, exponent_sign he hs]
      rw [if_neg fun hempty => hsome (if_pos hempty)] at hlength
      rw [List.length_cons, List.length_cons, List.length_cons, List.length_cons] at hlength
      obtain ⟨⟨hdigits, -⟩, hdigits', -⟩ := h.digits src (by omega)
      rw [hdigits, hdigits']
    · rw [exponent_digits he hs] at hlength hsome
      rw [exponent_digits he hs, exponent_digits he hs]
      rw [if_neg fun hempty => hsome (if_pos hempty)] at hlength
      rw [List.length_cons, List.length_cons] at hlength
      obtain ⟨⟨hdigits, -⟩, hdigits', -⟩ :=
        h.digits (s :: src) (Nat.le_of_eq (Nat.succ.inj hlength))
      rw [List.cons_append] at hdigits hdigits'
      rw [hdigits, hdigits']

/-- The length of a number. -/
theorem more_finishNumber {whole rest : List Char} {fraction : Bool} (hne : whole ≠ []) :
    (finishNumber whole rest fraction).more + 1 = whole.length + (Lexer.exponent rest).length := by
  have := List.length_pos_iff.mpr hne
  simp only [finishNumber, List.length_append]
  omega

theorem EndsAs.finishNumber_append (h : EndsAs r r') {whole : List Char} {fraction : Bool}
    (hne : whole ≠ [])
    (hmore : (finishNumber whole (src ++ r) fraction).more + 1 = whole.length + src.length) :
    finishNumber whole (src ++ r') fraction = finishNumber whole (src ++ r) fraction := by
  rw [more_finishNumber hne] at hmore
  unfold finishNumber
  rw [h.exponent_append (by omega)]

/-- **A number with a point**: digits after it, and an exponent. -/
theorem afterDigits_point_eq_ok_iff {whole more : List Char} {l : Lexeme} :
    afterDigits whole ('.' :: more) = .ok l ↔ more.takeWhile Char.isDigit ≠ []
      ∧ l = finishNumber (whole ++ '.' :: more.takeWhile Char.isDigit)
        (more.dropWhile Char.isDigit) true := by
  rw [afterDigits]
  split
  · rename_i hempty
    exact ⟨nofun, fun h => absurd (List.isEmpty_iff.mp hempty) h.1⟩
  · rename_i hdigits
    rw [List.isEmpty_iff] at hdigits
    exact ⟨fun h => ⟨hdigits, (Except.ok.inj h).symm⟩, fun h => congrArg _ h.2.symm⟩

/-- A number has its digits, and the point behind them if one is there. -/
theorem length_le_of_afterDigits {whole rest : List Char} {l : Lexeme} (hne : whole ≠ [])
    (hl : afterDigits whole rest = .ok l) :
    whole.length ≤ l.more + 1 ∧ ('.' ∈ rest.head? → whole.length < l.more + 1) := by
  by_cases hpoint : '.' ∈ rest.head?
  · obtain ⟨more, rfl⟩ := List.head?_eq_some_iff.mp hpoint
    obtain ⟨-, rfl⟩ := afterDigits_point_eq_ok_iff.mp hl
    rw [more_finishNumber (by simp), List.length_append, List.length_cons]
    exact ⟨by omega, fun _ => by omega⟩
  · rw [afterDigits_of_head_ne fun c hc h => hpoint (h ▸ hc)] at hl
    obtain rfl := Except.ok.inj hl
    rw [more_finishNumber hne]
    exact ⟨by omega, fun h => absurd h hpoint⟩

/-- **A number ends alike** behind its digits: the rest has no point unless the text has. -/
theorem EndsAs.afterDigits_append (h : EndsAs r r') {whole : List Char} {l : Lexeme}
    (hne : whole ≠ []) (hl : afterDigits whole (src ++ r) = .ok l)
    (hmore : l.more + 1 = whole.length + src.length) :
    afterDigits whole (src ++ r') = .ok l := by
  by_cases hpoint : '.' ∈ src.head?
  · obtain ⟨more, rfl⟩ := List.head?_eq_some_iff.mp hpoint
    rw [List.cons_append, afterDigits_point_eq_ok_iff] at hl ⊢
    obtain ⟨hdigits, rfl⟩ := hl
    have hlength := hmore
    rw [more_finishNumber (by simp), List.length_append, List.length_cons,
      List.length_cons] at hlength
    obtain ⟨⟨htake, hdrop⟩, htake', hdrop'⟩ := h.digits more (by omega)
    have hspan :=
      congrArg List.length (List.takeWhile_append_dropWhile (p := Char.isDigit) (l := more))
    rw [List.length_append] at hspan
    rw [htake, hdrop] at hmore ⊢
    rw [htake] at hdigits
    rw [htake', hdrop']
    refine ⟨hdigits, (h.finishNumber_append (by simp) ?_).symm⟩
    rw [hmore, List.length_append, List.length_cons, List.length_cons]
    omega
  · have hhead : ∀ c ∈ (src ++ r).head?, c ≠ '.' := by
      rintro c hc rfl
      cases src with
      | nil =>
        have := (length_le_of_afterDigits hne hl).2 hc
        rw [List.length_nil] at hmore
        omega
      | cons d src => exact hpoint hc
    have hhead' : ∀ c ∈ (src ++ r').head?, c ≠ '.' := by
      rintro c hc rfl
      cases src with
      | nil => exact hhead _ (h.head_eq hc (by decide) (by decide)) rfl
      | cons d src => exact hpoint hc
    rw [afterDigits_of_head_ne hhead] at hl
    obtain rfl := Except.ok.inj hl
    rw [afterDigits_of_head_ne hhead', h.finishNumber_append hne hmore]

/-- **A number ends alike.** -/
theorem EndsAs.number_append (h : EndsAs r r') {c : Char} {l : Lexeme}
    (hl : number c (src ++ r) = .ok l) (hmore : l.more = src.length) :
    number c (src ++ r') = .ok l := by
  have hspan :=
    congrArg List.length (List.takeWhile_append_dropWhile (p := Char.isDigit) (l := src))
  rw [List.length_append] at hspan
  unfold number at hl ⊢
  dsimp only at hl ⊢
  split at hl
  · cases hl
  · rename_i hminus
    have hle := (length_le_of_afterDigits (List.cons_ne_nil _ _) hl).1
    rw [List.length_cons] at hle
    obtain ⟨⟨htake, hdrop⟩, htake', hdrop'⟩ := h.digits src (by omega)
    rw [htake] at hminus hl
    rw [hdrop] at hl
    rw [htake', hdrop', if_neg hminus]
    refine h.afterDigits_append (List.cons_ne_nil _ _) hl ?_
    rw [List.length_cons]
    omega

/-! ### Words, literals and operators -/

/-- **A word is cut off up to where it stops.** -/
theorem stops_of_lexeme {c : Char} {rest : List Char} {l : Lexeme} (hc : startsWord c = true)
    (h : lexeme c rest = .ok l) : l.text = c :: rest.take l.more
      ∧ (∀ d ∈ rest.take l.more, continuesWord d = true) ∧ Stops (rest.drop l.more) := by
  rw [lexeme_of_startsWord hc] at h
  obtain rfl := Except.ok.inj h
  have htake : rest.take (word c rest).more = rest.takeWhile continuesWord :=
    (List.prefix_iff_eq_take.mp (List.takeWhile_prefix _)).symm
  have hdrop : rest.drop (word c rest).more = rest.dropWhile continuesWord :=
    calc rest.drop (rest.takeWhile continuesWord).length
        = (rest.takeWhile continuesWord ++ rest.dropWhile continuesWord).drop
            (rest.takeWhile continuesWord).length := by rw [List.takeWhile_append_dropWhile]
      _ = rest.dropWhile continuesWord := List.drop_left
  rw [htake, hdrop]
  refine ⟨rfl, List.all_eq_true.mp List.all_takeWhile, fun d hd => ?_⟩
  have hhead := List.head?_dropWhile_not continuesWord rest
  simpa [show (rest.dropWhile continuesWord).head? = some d from hd] using hhead

/-- **A word ends alike.** -/
theorem EndsAs.word_append (h : EndsAs r r') {c : Char}
    (hmore : (word c (src ++ r)).more = src.length) :
    word c (src ++ r') = word c (src ++ r) := by
  have hword := h.span ignoresCase_continuesWord (fun _ hd => hd) (Nat.le_of_eq hmore)
  obtain ⟨⟨htake, -⟩, htake', -⟩ := hword
  unfold word
  rw [htake, htake']

/-- An operator without an equals sign. -/
theorem ordered_of_head_ne {c : Char} {rest : List Char} {long short : Operator}
    (hrest : ∀ d ∈ rest.head?, d ≠ '=') :
    ordered c rest long short = ⟨.operator short, [c], 0⟩ := by
  unfold ordered
  split
  · exact absurd rfl (hrest _ rfl)
  · rfl

/-- **An operator ends alike.** -/
theorem EndsAs.ordered_append (h : EndsAs r r') {c : Char} {long short : Operator}
    (hmore : (ordered c (src ++ r) long short).more = src.length) :
    ordered c (src ++ r') long short = ordered c (src ++ r) long short := by
  cases src with
  | nil =>
    have hhead : ∀ d ∈ r.head?, d ≠ '=' := by
      rintro d hd rfl
      obtain ⟨rest, rfl⟩ := List.head?_eq_some_iff.mp hd
      exact nomatch hmore
    have hhead' : ∀ d ∈ r'.head?, d ≠ '=' := by
      rintro d hd rfl
      exact hhead _ (h.head_eq hd (by decide) (by decide)) rfl
    rw [List.nil_append, List.nil_append, ordered_of_head_ne hhead, ordered_of_head_ne hhead']
  | cons d src =>
    by_cases hd : d = '='
    · subst hd
      rfl
    · have hne : ∀ rest : List Char, ∀ c ∈ (d :: rest).head?, c ≠ '=' := by
        rintro rest c hc rfl
        exact hd (Option.some.inj hc)
      rw [List.cons_append, List.cons_append, ordered_of_head_ne (hne _),
        ordered_of_head_ne (hne _)]

/-- **A literal ends at its quote**, whatever follows. -/
theorem string_append {c : Char} (hc : c = '"' ∨ c = '\'') {l : Lexeme}
    (hl : string c (src ++ r) = .ok l) (hmore : l.more = src.length) (tail : List Char) :
    string c (src ++ tail) = .ok l := by
  obtain ⟨body, text, rest, hcut, h, rfl⟩ := (string_eq_ok_iff (ne_backslash_of_quote hc)).mp hl
  rw [List.append_cons] at hcut
  obtain ⟨rfl, -⟩ :=
    List.append_inj hcut (by rw [← hmore, List.length_append, List.length_singleton])
  rw [← List.append_cons]
  exact string_closed (ne_backslash_of_quote hc) h tail

/-- **A text begins with the same token in front of a rest that ends it alike.** -/
theorem lexeme_of_endsAs (h : EndsAs r r') {c : Char} {l : Lexeme}
    (hl : lexeme c (src ++ r) = .ok l) (hmore : l.more = src.length) :
    lexeme c (src ++ r') = .ok l := by
  unfold lexeme at hl ⊢
  split at hl
  case h_8 | h_9 =>
    obtain rfl := Except.ok.inj hl
    rw [h.ordered_append hmore]
  case h_10 =>
    cases src with
    | nil =>
      -- an operator that begins with this sign has a second one
      split at hl
      · obtain rfl := Except.ok.inj hl
        exact nomatch hmore
      · obtain rfl := Except.ok.inj hl
        exact nomatch hmore
      · cases hl
    | cons d src => split at hl <;> simp_all
  case h_11 => exact string_append (Or.inl rfl) hl hmore r'
  case h_12 => exact string_append (Or.inr rfl) hl hmore r'
  case h_13 =>
    split at hl
    · rw [if_pos ‹_›]
      exact h.number_append hl hmore
    · split at hl
      · obtain rfl := Except.ok.inj hl
        rw [if_neg ‹_›, if_pos ‹_›, h.word_append hmore]
      · cases hl
  all_goals exact hl

end Cut

end RecordQuery.Lexer
