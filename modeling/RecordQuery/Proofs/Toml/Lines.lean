import RecordQuery.Proofs.Toml.Quoted

/-!
# A document is read line by line

Text that consists of whole lines **builds** one document up to another if reading it takes the
reader from the one to the other, whatever lines follow (`Builds`). So what a text builds is put
together from what its lines build (`Builds.append`): a blank line changes nothing, a header opens
a table (`builds_header`), and an assignment of a text, a number or a truth value adds one entry
to the open table (`builds_assignment`). A text that builds a document from the empty one is read
as its value (`Builds.read?_eq`).

Numbers need the most care, because a date, a time and a decimal begin with digits too: none of
them ends in digits that a line break follows (`readMoment?_line`, `readDecimal?_line`).
-/

namespace RecordQuery.Toml

/-! ## Natural numbers -/

section Digits

variable {ds rest : List Char} (hds : ∀ c ∈ ds, c.isDigit = true)

/-- A number begins with a digit. -/
theorem exists_cons_digitsOf (n : Nat) : ∃ c cs, digitsOf n = c :: cs ∧ c.isDigit = true := by
  obtain ⟨c, cs, hcs⟩ : ∃ c cs, digitsOf n = c :: cs :=
    List.exists_cons_of_ne_nil Nat.toDigits_ne_nil
  exact ⟨c, cs, hcs, @isDigit_of_mem_digitsOf n c (hcs ▸ List.mem_cons_self)⟩

/-- The digits of a positive number do not begin with a zero. -/
theorem head_digitsOf_ne_zero {n : Nat} (hn : 0 < n) : (digitsOf n).head? ≠ some '0' := by
  have hone : ∀ n < 10, 0 < n → (digitsOf n).head? ≠ some '0' := by decide
  induction n using Nat.strong_induction_on with
  | _ n ih =>
    by_cases hlt : n < 10
    · exact hone n hlt hn
    · have hle : 10 ≤ n := by omega
      have hmore := ih (n / 10) (by omega) (by omega)
      obtain ⟨c, ds, hds, -⟩ := exists_cons_digitsOf (n / 10)
      rw [hds] at hmore
      rw [digitsOf] at hds
      rw [digitsOf, Nat.toDigits_of_base_le (by decide) hle, hds]
      exact hmore

include hds

/-- Digits and the end of the line begin with a digit or the line break. -/
theorem head_line {c : Char} {r : List Char} (h : ds ++ '\n' :: rest = c :: r) :
    c.isDigit = true ∨ c = '\n' := by
  cases ds with
  | nil => exact Or.inr (List.cons.inj h).1.symm
  | cons d ds => exact Or.inl ((List.cons.inj h).1 ▸ hds d List.mem_cons_self)

/-- Hence they do not begin with any other character. -/
theorem line_ne_cons {c : Char} {r : List Char} (hc : ¬(c.isDigit = true ∨ c = '\n')) :
    ds ++ '\n' :: rest ≠ c :: r :=
  fun h => hc (head_line hds h)

/-- Digits are read up to the end of the line. -/
theorem readDigits_line : readDigits Char.isDigit (ds ++ '\n' :: rest) = (ds, '\n' :: rest) := by
  induction ds with
  | nil => rfl
  | cons d ds ih =>
    obtain ⟨hd, hds⟩ := List.forall_mem_cons.mp hds
    rw [List.cons_append]
    unfold readDigits
    split
    · contradiction
    · rename_i heq
      obtain ⟨rfl, -⟩ := List.cons.inj heq
      exact absurd hd (by decide)
    · rename_i heq
      obtain ⟨rfl, rfl⟩ := List.cons.inj heq
      rw [if_pos hd, ih hds]

theorem splitSign_line : splitSign (ds ++ '\n' :: rest) = (false, ds ++ '\n' :: rest) := by
  unfold splitSign
  split
  · rename_i h
    exact absurd h (line_ne_cons hds (by decide))
  · rename_i h
    exact absurd h (line_ne_cons hds (by decide))
  · rfl

/-- What is behind a number of so many digits is digits and the end of the line. -/
theorem exists_of_readCount? {count n : Nat} {r : List Char}
    (h : readCount? count (ds ++ '\n' :: rest) = some (n, r)) :
    ∃ ds', r = ds' ++ '\n' :: rest ∧ ∀ c ∈ ds', c.isDigit = true := by
  unfold readCount? at h
  dsimp only at h
  split at h
  · rename_i hcount
    obtain ⟨rfl, rfl⟩ := Prod.mk.inj (Option.some.inj h)
    rw [Bool.and_eq_true, decide_eq_true_iff, List.all_eq_true] at hcount
    have hle : count ≤ ds.length := by
      by_contra hlt
      have hbreak : '\n' ∈ (ds ++ '\n' :: rest).take count := by
        have hsplit : (ds ++ '\n' :: rest).take count
            = ds ++ '\n' :: rest.take (count - ds.length - 1) := by
          obtain ⟨k, hk⟩ : ∃ k, count - ds.length = k + 1 := ⟨count - ds.length - 1, by omega⟩
          rw [List.take_append, List.take_of_length_le (by omega), hk, List.take_succ_cons,
            Nat.add_sub_cancel]
        rw [hsplit]
        exact List.mem_append_right _ List.mem_cons_self
      exact absurd (hcount.2 _ hbreak) (by decide)
    exact ⟨ds.drop count, List.drop_append_of_le_length hle,
      fun c hc => hds c (List.mem_of_mem_drop hc)⟩
  · cases h

/-- Digits and the end of the line are no date and no time. -/
theorem readMoment?_line : readMoment? (ds ++ '\n' :: rest) = none := by
  have hhead : ∀ {count n : Nat} {c : Char} {r : List Char},
      readCount? count (ds ++ '\n' :: rest) = some (n, c :: r) → c.isDigit = true ∨ c = '\n' := by
    intro count n c r h
    obtain ⟨ds', hr, hds'⟩ := exists_of_readCount? hds h
    exact head_line hds' hr.symm
  have hdate : afterDate? (ds ++ '\n' :: rest) = none := by
    unfold afterDate?
    split
    · rename_i h
      exact absurd (hhead h) (by decide)
    · rfl
  have hminute : afterMinute? (ds ++ '\n' :: rest) = none := by
    unfold afterMinute?
    split
    · rename_i h
      exact absurd (hhead h) (by decide)
    · rfl
  rw [readMoment?, afterMoment?, hdate]
  dsimp only
  rw [afterTime?, hminute]
  rfl

/-- What is behind the digits in front of a point is digits and the end of the line. -/
theorem exists_of_wholeDigits? {whole r : List Char}
    (h : wholeDigits? (ds ++ '\n' :: rest) = some (whole, r)) :
    ∃ ds', r = ds' ++ '\n' :: rest ∧ ∀ c ∈ ds', c.isDigit = true := by
  unfold wholeDigits? at h
  split at h
  · rename_i r' hzero
    obtain ⟨rfl, rfl⟩ := Prod.mk.inj (Option.some.inj h)
    cases ds with
    | nil => exact absurd (List.cons.inj hzero).1 (by decide)
    | cons d ds => exact ⟨ds, (List.cons.inj hzero).2.symm, (List.forall_mem_cons.mp hds).2⟩
  · unfold someDigits? at h
    split at h
    · split at h
      · rw [readDigits_line hds] at h
        obtain ⟨rfl, rfl⟩ := Prod.mk.inj (Option.some.inj h)
        exact ⟨[], rfl, by simp⟩
      · cases h
    · cases h

/-- Digits and the end of the line are no decimal: they have no point and no exponent. -/
theorem readDecimal?_line : readDecimal? (ds ++ '\n' :: rest) = none := by
  unfold readDecimal?
  rw [splitSign_line hds]
  dsimp only
  split
  · rename_i h
    exact absurd h (line_ne_cons hds (by decide))
  · rename_i h
    exact absurd h (line_ne_cons hds (by decide))
  · split
    · rfl
    · rename_i h
      obtain ⟨ds', hr, hds'⟩ := exists_of_wholeDigits? hds h
      exact absurd hr.symm (line_ne_cons hds' (by decide))
    · rename_i whole r _ h
      obtain ⟨ds', rfl, hds'⟩ := exists_of_wholeDigits? hds h
      have hexponent : readExponent? (ds' ++ '\n' :: rest) = none := by
        unfold readExponent?
        split
        · rename_i heq
          rw [if_neg]
          rintro (rfl | rfl) <;> exact absurd heq (line_ne_cons hds' (by decide))
        · rfl
      rw [hexponent]

end Digits

/-- **A natural number is read back**, if it fits. -/
theorem readNumeral?_digitsOf {n : Nat} (hn : fitsInt64 n = true) (rest : List Char) :
    readNumeral? (digitsOf n ++ '\n' :: rest) = some (.ofNat n, '\n' :: rest) := by
  have hds : ∀ c ∈ digitsOf n, c.isDigit = true := fun c hc => isDigit_of_mem_digitsOf hc
  rw [readNumeral?, readMoment?_line hds, readDecimal?_line hds, Option.none_or, Option.none_or]
  rcases Nat.eq_zero_or_pos n with rfl | hpos
  · rfl
  · obtain ⟨c, ds, hcs, hc⟩ := exists_cons_digitsOf n
    have hread : readDigits Char.isDigit (digitsOf n ++ '\n' :: rest)
        = (digitsOf n, '\n' :: rest) := readDigits_line hds
    have hsign : splitSign (digitsOf n ++ '\n' :: rest) = (false, digitsOf n ++ '\n' :: rest) :=
      splitSign_line hds
    have hfront : digitsOf n ++ '\n' :: rest = c :: (ds ++ '\n' :: rest) := by
      rw [hcs, List.cons_append]
    have hzero : ∀ r, digitsOf n ++ '\n' :: rest ≠ '0' :: r := by
      intro r h
      have hhead := head_digitsOf_ne_zero hpos
      rw [hcs, (List.cons.inj (hfront.symm.trans h)).1] at hhead
      exact hhead rfl
    unfold readInteger?
    split
    · exact absurd ‹_› (hzero _)
    · exact absurd ‹_› (hzero _)
    · exact absurd ‹_› (hzero _)
    · rw [hsign]
      dsimp only
      split
      · exact absurd ‹_› (hzero _)
      · rename_i d r _ h
        obtain ⟨rfl, -⟩ := List.cons.inj (hfront.symm.trans h)
        rw [if_neg (by simp [hc]), hread]
        dsimp only
        rw [ofDigits_digitsOf, if_neg Bool.false_ne_true, fittingInt?, if_pos hn]
        rfl
      · rename_i h
        exact absurd (hfront.symm.trans h) (List.cons_ne_nil _ _)

/-! ## Keys and values -/

/-- **A name that needs no quotes.** -/
def IsBareName (name : String) : Prop := name.toList ≠ [] ∧ name.toList.all isBare = true

instance (name : String) : Decidable (IsBareName name) := inferInstanceAs (Decidable (_ ∧ _))

/-- **A text denotes a value** if it is read as the value at the end of every line. -/
def Denotes (text : List Char) (v : Json) : Prop :=
  ∀ rest, skipSpace (text ++ '\n' :: rest) = text ++ '\n' :: rest
    ∧ readValue? nestingLimit (text ++ '\n' :: rest) = some (v, '\n' :: rest)

theorem isSpace_of_isBare {c : Char} (h : isBare c = true) : isSpace c = false := by
  simp only [isSpace, Bool.or_eq_false_iff, decide_eq_false_iff_not]
  constructor <;> rintro rfl <;> exact absurd h (by decide)

theorem skipSpace_cons {c : Char} {cs : List Char} (h : isSpace c = false) :
    skipSpace (c :: cs) = c :: cs :=
  List.dropWhile_cons_of_neg (by simp [h])

section Names

variable {name : String} {rest : List Char} (hname : IsBareName name)

include hname

theorem IsBareName.forall_mem : ∀ c ∈ name.toList, isBare c = true := List.all_eq_true.mp hname.2

/-- A name that needs no quotes begins like one. -/
theorem IsBareName.exists_cons : ∃ c cs, name.toList = c :: cs ∧ isBare c = true := by
  obtain ⟨c, cs, hcs⟩ := List.exists_cons_of_ne_nil hname.1
  exact ⟨c, cs, hcs, hname.forall_mem c (hcs ▸ List.mem_cons_self)⟩

theorem IsBareName.skipSpace : skipSpace (name.toList ++ rest) = name.toList ++ rest := by
  obtain ⟨c, cs, hcs, hc⟩ := hname.exists_cons
  rw [hcs, List.cons_append, skipSpace_cons (isSpace_of_isBare hc)]

/-- **A name is read up to the first character that cannot stand in it.** -/
theorem IsBareName.readName? (hrest : ∀ c ∈ rest.head?, isBare c = false) :
    readName? (name.toList ++ rest) = some (name, rest) := by
  have htake : (name.toList ++ rest).takeWhile isBare = name.toList
      ∧ (name.toList ++ rest).dropWhile isBare = rest := by
    rw [List.takeWhile_append_of_pos hname.forall_mem,
      List.dropWhile_append_of_pos hname.forall_mem]
    cases rest with
    | nil => simp
    | cons c rest =>
      have hc : isBare c = false := hrest c rfl
      simp [hc]
  obtain ⟨c, cs, hcs, hc⟩ := hname.exists_cons
  have hquote : ∀ {q : Char} {r : List Char}, name.toList ++ rest = q :: r → isBare q = true := by
    intro q r h
    rw [hcs] at h
    exact (List.cons.inj h).1 ▸ hc
  unfold Toml.readName?
  split
  · exact absurd (hquote ‹_›) (by decide)
  · exact absurd (hquote ‹_›) (by decide)
  · dsimp only
    rw [htake.1, htake.2, if_neg (by simpa using hname.1), String.ofList_toList]

/-- A key of one name is read up to what follows its spaces. -/
theorem IsBareName.readKey? (hrest : ∀ c ∈ rest.head?, isBare c = false)
    (hpoint : (Toml.skipSpace rest).head? ≠ some '.') :
    readKey? (name.toList ++ rest) = some ([name], Toml.skipSpace rest) := by
  have hread :
      readNames? nestingLimit [] (name.toList ++ rest) = some ([name], Toml.skipSpace rest) := by
    show readNames? (78 + 1) [] (name.toList ++ rest) = _
    rw [readNames?, hname.skipSpace, hname.readName? hrest]
    dsimp only
    split
    · rename_i h
      exact absurd (by rw [h]; rfl) hpoint
    · rfl
  rw [Toml.readKey?, hread]
  rfl

end Names

/-- Where no bracket opens, a value is one without brackets. -/
theorem readValue?_eq (depth : Nat) {c : Char} (cs : List Char) (hitems : c ≠ '[')
    (htable : c ≠ '\x7b') :
    readValue? depth (c :: cs) = readScalar? (c :: cs) := by
  cases depth with
  | zero => rfl
  | succ depth =>
    unfold readValue?
    split
    · rename_i h
      exact absurd (List.cons.inj h).1 hitems
    · rename_i h
      exact absurd (List.cons.inj h).1 htable
    · rfl

/-- **A text in quotes denotes the text.** -/
theorem denotes_quoted (s : String) : Denotes (quoted s).toList (.string s) := by
  intro rest
  obtain ⟨quote, cs, hcs, hquote⟩ : ∃ quote cs,
      (quoted s).toList = quote :: cs ∧ (quote = '"' ∨ quote = '\'') := by
    have henclose : ∀ {quote : Char} {lines breaks : Bool} {body : List Char},
        quote = '"' ∨ quote = '\'' →
        ∃ q cs, enclose quote lines breaks body = q :: cs ∧ (q = '"' ∨ q = '\'') := by
      intro quote lines breaks body hquote
      refine ⟨quote, (enclose quote lines breaks body).tail, ?_, hquote⟩
      cases lines <;> rfl
    unfold quoted
    dsimp only
    rw [String.toList_ofList]
    repeat' split
    all_goals exact henclose (by decide)
  have hread : readScalar? ((quoted s).toList ++ '\n' :: rest) = some (.string s, '\n' :: rest) :=
    readScalar?_quoted s fun c hc => by
      obtain rfl : '\n' = c := Option.some.inj hc
      decide
  rw [hcs] at hread ⊢
  rw [List.cons_append] at hread ⊢
  rcases hquote with rfl | rfl
  · exact ⟨skipSpace_cons (by decide), (readValue?_eq _ _ (by decide) (by decide)).trans hread⟩
  · exact ⟨skipSpace_cons (by decide), (readValue?_eq _ _ (by decide) (by decide)).trans hread⟩

/-- **Digits denote a number**, if it fits. -/
theorem denotes_toString {n : Nat} (hn : fitsInt64 n = true) :
    Denotes (toString n).toList (.ofNat n) := by
  intro rest
  have hdigits : (toString n).toList = digitsOf n := Nat.toList_repr
  obtain ⟨c, cs, hcs, hc⟩ := exists_cons_digitsOf n
  have hne : ∀ {d : Char}, d.isDigit = false → c ≠ d := by
    rintro d hd rfl
    exact Bool.false_ne_true (hd.symm.trans hc)
  have hread := readNumeral?_digitsOf hn rest
  rw [hdigits]
  rw [hcs, List.cons_append] at hread ⊢
  refine ⟨skipSpace_cons ?_, ?_⟩
  · simp [isSpace, hne (d := ' ') (by decide), hne (d := '\t') (by decide)]
  · rw [readValue?_eq _ _ (hne (by decide)) (hne (by decide))]
    unfold readScalar?
    split
    · exact absurd (List.cons.inj ‹_›).1 (hne (by decide))
    · exact absurd (List.cons.inj ‹_›).1 (hne (by decide))
    · exact absurd (List.cons.inj ‹_›).1 (hne (by decide))
    · exact absurd (List.cons.inj ‹_›).1 (hne (by decide))
    · exact hread

/-- **The name of a truth value denotes it.** -/
theorem denotes_bool (b : Bool) : Denotes (toString b).toList (.bool b) := by
  intro rest
  cases b <;> exact ⟨rfl, rfl⟩

/-! ## Lines -/

/-- **Whole lines build a document up**, whatever follows them. -/
def Builds (lines : List Char) (d d' : Document) : Prop :=
  ∀ rest fuel, (lines ++ rest).length < fuel →
    ∃ fuel',
      rest.length < fuel' ∧ readDocument? fuel d (lines ++ rest) = readDocument? fuel' d' rest

theorem Builds.nil (d : Document) : Builds [] d d := fun _ fuel hfuel => ⟨fuel, hfuel, rfl⟩

theorem Builds.append {lines more : List Char} {d d' d'' : Document} (h : Builds lines d d')
    (h' : Builds more d' d'') :
    Builds (lines ++ more) d d'' := by
  intro rest fuel hfuel
  rw [List.append_assoc] at hfuel ⊢
  obtain ⟨fuel', hfuel', hread⟩ := h (more ++ rest) fuel hfuel
  obtain ⟨fuel'', hfuel'', hread'⟩ := h' rest fuel' hfuel'
  exact ⟨fuel'', hfuel'', hread.trans hread'⟩

/-- A blank line changes nothing. -/
theorem builds_blank (d : Document) : Builds ['\n'] d d := by
  intro rest fuel hfuel
  rw [List.singleton_append, List.length_cons] at hfuel
  refine ⟨fuel, by omega, ?_⟩
  obtain ⟨fuel, rfl⟩ : ∃ n, fuel = n + 1 := ⟨fuel - 1, by omega⟩
  rfl

/-- **A line that says something adds that to the document.** -/
theorem builds_line {text : List Char} {l : Line} {d d' : Document} {c : Char} {cs : List Char}
    (htext : text = c :: cs) (hc : isSpace c = false ∧ c ≠ '#' ∧ c ≠ '\n' ∧ c ≠ '\r')
    (hread : ∀ rest, readLine? (text ++ '\n' :: rest) = some (l, '\n' :: rest))
    (hadd : d.add? l = some d') :
    Builds (text ++ ['\n']) d d' := by
  intro rest fuel hfuel
  rw [List.append_assoc, List.singleton_append] at hfuel ⊢
  have hskip : ∀ n, skipLines n (text ++ '\n' :: rest) = text ++ '\n' :: rest := by
    intro n
    have hcomment : skipComment (c :: (cs ++ '\n' :: rest)) = c :: (cs ++ '\n' :: rest) := by
      unfold skipComment
      split
      · exact absurd (List.cons.inj ‹_›).1 hc.2.1
      · rfl
    have hline : newline? (c :: (cs ++ '\n' :: rest)) = none :=
      newline?_eq_none (by simpa using hc.2.2.1) (by simpa using hc.2.2.2)
    rw [htext, List.cons_append]
    cases n with
    | zero => rfl
    | succ n =>
      rw [skipLines, skipSpace_cons hc.1, hcomment, hline]
  obtain ⟨fuel, rfl⟩ : ∃ n, fuel = n + 1 := ⟨fuel - 1, by omega⟩
  refine ⟨fuel, ?_, ?_⟩
  · rw [List.length_append, List.length_cons] at hfuel
    omega
  · have hline := hread rest
    rw [htext, List.cons_append] at hskip hline ⊢
    rw [readDocument?, hskip]
    dsimp only
    rw [hline]
    dsimp only
    rw [hadd]
    rfl

/-- **A header opens a table.** -/
theorem builds_header {name : String} (hname : IsBareName name) {d d' : Document}
    (hadd : d.add? (.table [name]) = some d') :
    Builds ('[' :: (name.toList ++ [']']) ++ ['\n']) d d' := by
  refine builds_line rfl (by decide) (fun rest => ?_) hadd
  have hkey : readKey? (name.toList ++ ']' :: '\n' :: rest) = some ([name], ']' :: '\n' :: rest) :=
    hname.readKey? (by rintro c ⟨rfl⟩; rfl) (show some ']' ≠ some '.' by decide)
  have hheader :
      readHeader? [']'] (name.toList ++ ']' :: '\n' :: rest) = some ([name], '\n' :: rest) := by
    rw [readHeader?, hkey]
    rfl
  obtain ⟨c, cs, hcs, hc⟩ := hname.exists_cons
  rw [List.cons_append, List.append_assoc, List.singleton_append]
  unfold readLine?
  split
  · rename_i h
    rw [hcs] at h
    obtain rfl : c = '[' := (List.cons.inj (List.cons.inj h).2).1
    exact absurd hc (by decide)
  · rename_i h
    rw [← (List.cons.inj h).2, hheader]
    rfl
  · rename_i h
    exact absurd rfl (h _)

/-- **An assignment gives a key its value.** -/
theorem builds_assignment {name : String} (hname : IsBareName name) {text : List Char} {v : Json}
    (hv : Denotes text v) {d d' : Document} (hadd : d.add? (.assignment [name] v) = some d') :
    Builds (name.toList ++ ' ' :: '=' :: ' ' :: text ++ ['\n']) d d' := by
  obtain ⟨c, cs, hcs, hc⟩ := hname.exists_cons
  have hne : ∀ {d : Char}, isBare d = false → c ≠ d := by
    rintro d hd rfl
    exact Bool.false_ne_true (hd.symm.trans hc)
  refine builds_line (by rw [hcs, List.cons_append]) ⟨isSpace_of_isBare hc, hne rfl, hne rfl,
    hne rfl⟩ (fun rest => ?_) hadd
  obtain ⟨hskip, hread⟩ := hv rest
  have hkey : readKey? (name.toList ++ ' ' :: '=' :: ' ' :: (text ++ '\n' :: rest))
      = some ([name], '=' :: ' ' :: (text ++ '\n' :: rest)) := by
    refine hname.readKey? ?_ ?_
    · rintro c ⟨rfl⟩
      rfl
    · show some '=' ≠ some '.'
      decide
  have hassign : readAssignment? (readValue? nestingLimit)
      (name.toList ++ ' ' :: '=' :: ' ' :: (text ++ '\n' :: rest))
        = some (([name], v), '\n' :: rest) := by
    rw [readAssignment?, hkey]
    show (readValue? nestingLimit (skipSpace (text ++ '\n' :: rest))).map (fun x =>
      (([name], x.1), x.2)) = _
    rw [hskip, hread]
    rfl
  simp only [List.append_assoc, List.cons_append]
  unfold readLine?
  split
  · rename_i h
    rw [hcs] at h
    exact absurd (List.cons.inj h).1 (hne rfl)
  · rename_i h
    rw [hcs] at h
    exact absurd (List.cons.inj h).1 (hne rfl)
  · rw [hassign]
    rfl

/-! ## Documents -/

/-- **A text whose lines build a document from the empty one is read as the value of the
document.** -/
theorem Builds.read?_eq {text : String} {d : Document} (h : Builds text.toList .empty d)
    (hmark : text.toList.head? ≠ some '\ufeff') : read? text = some d.toJson := by
  have hcs : withoutMark text.toList = text.toList := by
    unfold withoutMark
    split
    · rename_i hhead
      exact absurd (by rw [hhead]; rfl) hmark
    · rfl
  obtain ⟨fuel, hfuel, hread⟩ := h [] (text.toList.length + 1) (by simp)
  obtain ⟨fuel, rfl⟩ : ∃ n, fuel = n + 1 := ⟨fuel - 1, by omega⟩
  rw [List.append_nil] at hread
  rw [read?, hcs, hread]
  rfl

theorem entriesJson_append (es es' : Entries) :
    entriesJson (es ++ es') = entriesJson es ++ entriesJson es' := by
  induction es with
  | nil => rfl
  | cons e es ih => rw [List.cons_append, entriesJson, entriesJson, ih, List.cons_append]

namespace Document

variable {name key : String} {v : Json} {es before : Entries}

/-- A value in the document's own table. -/
theorem add?_root (hkey : es.lookup key = none) :
    (⟨[], es⟩ : Document).add? (.assignment [key] v) = some ⟨[], es ++ [(key, .value v)]⟩ := by
  rw [add?, Entries.within?, Entries.assign?, hkey]
  rfl

/-- A new table. -/
theorem add?_table (here : List String) (hname : before.lookup name = none) :
    (⟨here, before⟩ : Document).add? (.table [name])
      = some ⟨[name], before ++ [(name, .table .header [])]⟩ := by
  show (Entries.openTable? name before).map (fun root => (⟨[name], root⟩ : Document)) = _
  rw [Entries.openTable?, hname]
  rfl

/-- A value in the table that was opened last. -/
theorem add?_section (hname : before.lookup name = none) (hkey : es.lookup key = none) :
    (⟨[name], before ++ [(name, .table .header es)]⟩ : Document).add? (.assignment [key] v)
      = some ⟨[name], before ++ [(name, .table .header (es ++ [(key, .value v)]))]⟩ := by
  have hlookup :
      (before ++ [(name, Item.table .header es)]).lookup name = some (.table .header es) := by
    rw [List.lookup_append, hname]
    simp
  have hreplace : Entries.replace name (.table .header (es ++ [(key, .value v)]))
        (before ++ [(name, .table .header es)])
      = before ++ [(name, .table .header (es ++ [(key, .value v)]))] := by
    have hbefore : ∀ e ∈ before, e.1 ≠ name := by
      intro e he hsame
      have hne := List.lookup_eq_none_iff.mp hname e he
      simp [hsame] at hne
    have hkeep :
        before.map (fun e =>
          if e.1 = name then (name, Item.table .header (es ++ [(key, .value v)])) else e)
            = before :=
      (List.map_congr_left fun e he => if_neg (hbefore e he)).trans (List.map_id' before)
    rw [Entries.replace, List.map_append, hkeep]
    simp
  rw [add?, Entries.within?, hlookup]
  dsimp only
  rw [Entries.within?, Entries.assign?, hkey]
  dsimp only
  rw [Option.map_some, Option.map_some, hreplace]

end Document

end RecordQuery.Toml
