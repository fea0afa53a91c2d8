import Mathlib.Data.List.TakeWhile
import RecordQuery.Toml.Reader
import RecordQuery.Toml.Writer

/-!
# A text in quotes is read back

Whichever of its four forms the writer takes for a text, the reader finds the text in it and stops
behind its last quote (`readScalar?_quoted`). Reader and writer meet in `Says`: what stands
between quotes says a text if every character of the text stands in it as it is or, between double
quotes, as an escape. The reader finds what is said (`readText?_of_says`, `readLines?_of_says`),
and the writer only writes what says the text (`says_escapedAfter`, `says_self`).

Between three quotes a quote may stand for itself, and the reader counts the quotes that follow
each other to tell the last ones from the others. So not more than two may follow each other in
the text, which is what the writer measures (`longestRun`) before it takes such a form.
-/

namespace RecordQuery.Toml

/-! ## What stands between quotes -/

/-- **What follows a backslash names a character**, whatever is behind it, and does not join two
lines. -/
def IsCode (code : List Char) (c : Char) : Prop :=
  ∀ rest, readEscape? (code ++ rest) = some (c, rest) ∧ joinLines? (code ++ rest) = none

/-- **What stands between quotes says a text.** Line breaks and the quote itself only stand for
themselves in a text on several lines, and there no more than two quotes may follow each other. -/
inductive Says (quote : Char) (lines : Bool) : (body text : List Char) → Prop
  | done : Says quote lines [] []
  | plain {c : Char} {body text : List Char} (hquote : c ≠ quote)
      (hbackslash : ¬(c = '\\' ∧ quote = '"'))
      (hc : isPlain c = true ∨ lines = true ∧ c = '\n') (h : Says quote lines body text) :
      Says quote lines (c :: body) (c :: text)
  | escape {code : List Char} {c : Char} {body text : List Char} (hquote : quote = '"')
      (hcode : IsCode code c)
      (h : Says quote lines body text) : Says quote lines ('\\' :: (code ++ body)) (c :: text)
  | quote {body text : List Char} (hlines : lines = true)
      (hrun : (body.takeWhile (· = quote)).length ≤ 1)
      (h : Says quote lines body text) : Says quote lines (quote :: body) (quote :: text)

theorem newline?_eq_none {cs : List Char} (hbreak : cs.head? ≠ some '\n')
    (hreturn : cs.head? ≠ some '\r') :
    newline? cs = none := by
  unfold newline?
  split
  · exact absurd rfl hbreak
  · exact absurd rfl hreturn
  · rfl

theorem not_isPlain_return : isPlain '\r' = false := by decide

section Reader

variable {quote : Char} {lines : Bool} {body text rest : List Char}

/-- What says a text does not begin with a carriage return. -/
theorem Says.head_ne_return (h : Says quote lines body text) (hquote : quote ≠ '\r') :
    body.head? ≠ some '\r' := by
  cases h with
  | done => simp
  | plain _ _ hc _ =>
    rintro ⟨rfl⟩
    simp [not_isPlain_return] at hc
  | escape => simp
  | quote => simpa using hquote

/-- What says a text without line breaks does not begin with one. -/
theorem Says.head_ne_break (h : Says quote lines body text) (hquote : quote ≠ '\n')
    (htext : '\n' ∉ text) :
    body.head? ≠ some '\n' := by
  cases h with
  | done => simp
  | plain =>
    rintro ⟨rfl⟩
    exact htext List.mem_cons_self
  | escape => simp
  | quote => simpa using hquote

/-- **A text on one line is read up to its closing quote.** -/
theorem readText?_of_says (h : Says quote false body text) {fuel : Nat}
    (hfuel : body.length < fuel) (done : List Char) :
    readText? quote fuel done (body ++ quote :: rest)
      = some (String.ofList (done.reverse ++ text), rest) := by
  induction h generalizing fuel done with
  | done =>
    obtain ⟨fuel, rfl⟩ := Nat.exists_eq_add_of_lt hfuel
    simp [readText?]
  | @plain c body text hquote hbackslash hc h ih =>
    obtain ⟨fuel, rfl⟩ : ∃ n, fuel = n + 1 := ⟨fuel - 1, by omega⟩
    have hplain : isPlain c = true := by simpa using hc
    have hbody : body.length < fuel := by simpa using hfuel
    rw [List.cons_append, readText?, if_neg hquote, if_neg hbackslash, if_pos hplain, ih hbody]
    simp
  | @escape code c body text hquote hcode h ih =>
    obtain ⟨fuel, rfl⟩ : ∃ n, fuel = n + 1 := ⟨fuel - 1, by omega⟩
    have hbody : body.length < fuel := by
      simp only [List.length_cons, List.length_append] at hfuel
      omega
    subst hquote
    have hread := (hcode (body ++ '"' :: rest)).1
    rw [List.cons_append, List.append_assoc, readText?, if_neg (by decide), if_pos ⟨rfl, rfl⟩,
      hread]
    dsimp only
    rw [ih hbody]
    simp
  | quote hlines => cases hlines

/-- A run of quotes is counted up to the first other character. -/
theorem length_run (n : Nat) (hrest : rest.head? ≠ some quote) :
    ((List.replicate n quote ++ rest).takeWhile (· = quote)).length = n := by
  have hnone : rest.takeWhile (· = quote) = [] := by
    cases rest with
    | nil => rfl
    | cons c rest =>
      have hc : c ≠ quote := by simpa using hrest
      rw [List.takeWhile_cons_of_neg (by simpa using hc)]
  rw [List.takeWhile_append_of_pos (by simp), hnone]
  simp

/-- **A quote that follows no more than one other is not taken for the end**, unless the end
follows. -/
theorem readLines?_quote {fuel n : Nat} (hn : n < 2) (done : List Char)
    (hrest : rest.head? ≠ some quote) :
    readLines? quote (fuel + 1) done (quote :: (List.replicate n quote ++ rest))
      = readLines? quote fuel (quote :: done) (List.replicate n quote ++ rest) := by
  have hrun : ((quote :: (List.replicate n quote ++ rest)).takeWhile (· = quote)).length
      = n + 1 := by
    rw [← List.cons_append, ← List.replicate_succ, length_run _ hrest]
  rw [readLines?]
  dsimp only
  rw [if_pos rfl, hrun, if_pos (by omega)]

/-- **Three quotes end a text**, and up to two more in front of them belong to it. -/
theorem readLines?_end {fuel n : Nat} (hn : n ≤ 2) (done : List Char)
    (hrest : rest.head? ≠ some quote) :
    readLines? quote (fuel + 1) done (List.replicate (n + 3) quote ++ rest)
      = some (String.ofList (done.reverse ++ List.replicate n quote), rest) := by
  have hrun : ((List.replicate (n + 3) quote ++ rest).takeWhile (· = quote)).length = n + 3 :=
    length_run _ hrest
  rw [List.replicate_succ, List.cons_append] at hrun ⊢
  have hmin : min 5 (n + 3) = n + 3 := by omega
  rw [readLines?]
  dsimp only
  rw [if_pos rfl, hrun, hmin, if_neg (by omega), Nat.add_sub_cancel, List.reverse_append,
    List.reverse_replicate, ← List.cons_append, ← List.replicate_succ,
    List.drop_left' (List.length_replicate ..)]

/-- A text begins with a run of quotes, however short. -/
theorem exists_run (cs : List Char) :
    ∃ n rest, cs = List.replicate n quote ++ rest ∧ rest.head? ≠ some quote
      ∧ n = (cs.takeWhile (· = quote)).length := by
  refine ⟨_, cs.dropWhile (· = quote), ?_, ?_, rfl⟩
  · have hall : cs.takeWhile (· = quote) = List.replicate (cs.takeWhile (· = quote)).length quote :=
      List.eq_replicate_iff.mpr ⟨rfl, fun c hc => by simpa using List.mem_takeWhile_imp hc⟩
    rw [← hall, List.takeWhile_append_dropWhile]
  · intro hhead
    have hnot := List.head?_dropWhile_not (· = quote) cs
    rw [hhead] at hnot
    simp at hnot

/-- Quotes alone say themselves. -/
theorem Says.eq_replicate (h : Says quote lines body text) (hquote : quote ≠ '\\') {n : Nat}
    (hbody : body = List.replicate n quote) : text = List.replicate n quote := by
  induction h generalizing n with
  | done => simpa using hbody
  | plain hc =>
    cases n with
    | zero => simp at hbody
    | succ n => exact absurd (List.cons.inj hbody).1 hc
  | escape =>
    cases n with
    | zero => simp at hbody
    | succ n => exact absurd (List.cons.inj hbody).1.symm hquote
  | quote _ _ _ ih =>
    cases n with
    | zero => simp at hbody
    | succ n => rw [ih (List.cons.inj hbody).2, List.replicate_succ]

/-- **A text on several lines is read up to its three closing quotes**, if no other quote follows
them. -/
theorem readLines?_of_says (hquote : quote ≠ '\\' ∧ quote ≠ '\n' ∧ quote ≠ '\r')
    (h : Says quote true body text) {fuel : Nat} (hfuel : body.length < fuel) (done : List Char)
    (hrest : rest.head? ≠ some quote) :
    readLines? quote fuel done (body ++ List.replicate 3 quote ++ rest)
      = some (String.ofList (done.reverse ++ text), rest) := by
  induction h generalizing fuel done with
  | done =>
    obtain ⟨fuel, rfl⟩ : ∃ n, fuel = n + 1 := ⟨fuel - 1, by omega⟩
    exact readLines?_end (Nat.zero_le 2) done hrest
  | @plain c body text hne hbackslash hc h ih =>
    obtain ⟨fuel, rfl⟩ : ∃ n, fuel = n + 1 := ⟨fuel - 1, by omega⟩
    have hbody : body.length < fuel := by simpa using hfuel
    rw [List.cons_append, List.cons_append, readLines?]
    dsimp only
    rw [if_neg hne, if_neg hbackslash]
    rcases hc with hc | ⟨-, rfl⟩
    · have hline : newline? (c :: (body ++ List.replicate 3 quote ++ rest)) = none := by
        refine newline?_eq_none ?_ ?_
        · rintro ⟨rfl⟩
          exact absurd hc (by decide)
        · rintro ⟨rfl⟩
          exact absurd hc (by decide)
      rw [hline]
      dsimp only
      rw [if_pos hc, ih hbody]
      simp
    · show readLines? quote fuel ('\n' :: done) (body ++ List.replicate 3 quote ++ rest) = _
      rw [ih hbody]
      simp
  | @escape code c body text hdouble hcode h ih =>
    obtain ⟨fuel, rfl⟩ : ∃ n, fuel = n + 1 := ⟨fuel - 1, by omega⟩
    have hbody : body.length < fuel := by
      simp only [List.length_cons, List.length_append] at hfuel
      omega
    subst hdouble
    obtain ⟨hread, hjoin⟩ := hcode (body ++ List.replicate 3 '"' ++ rest)
    rw [List.cons_append, List.cons_append, List.append_assoc code, List.append_assoc code,
      readLines?]
    dsimp only
    rw [if_neg (by decide), if_pos ⟨rfl, rfl⟩, hjoin]
    dsimp only
    rw [hread]
    dsimp only
    rw [ih hbody]
    simp
  | @quote body text hlines hrun h ih =>
    obtain ⟨fuel, rfl⟩ : ∃ n, fuel = n + 1 := ⟨fuel - 1, by omega⟩
    have hbody : body.length < fuel := by simpa using hfuel
    obtain ⟨n, more, rfl, hmore, hn⟩ := @exists_run quote body
    rw [← hn] at hrun
    by_cases hall : more = []
    · -- only the closing quotes follow, so that the reader takes all of them at once
      subst hall
      rw [List.append_nil] at h
      rw [h.eq_replicate hquote.1 rfl, List.append_nil, ← List.replicate_succ,
        List.replicate_append_replicate]
      exact readLines?_end (by omega) done hrest
    · have hhead : (more ++ (List.replicate 3 quote ++ rest)).head? ≠ some quote := by
        obtain ⟨c, cs, rfl⟩ := List.exists_cons_of_ne_nil hall
        exact hmore
      have hstep := ih hbody (quote :: done)
      rw [List.append_assoc, List.append_assoc] at hstep
      rw [List.cons_append, List.cons_append, List.append_assoc, List.append_assoc,
        readLines?_quote (by omega) done hhead, hstep]
      simp

/-- **What is enclosed in quotes is read back**, on one line or on several, if it says the text,
if a line break at its front has another one before it, and if no other quote follows. -/
theorem readQuoted?_enclose (hquote : quote ≠ '\\' ∧ quote ≠ '\n' ∧ quote ≠ '\r')
    (h : Says quote lines body text) {breaks : Bool}
    (hbreaks : breaks = false → body.head? ≠ some '\n') (hrest : rest.head? ≠ some quote) :
    ∃ inner, enclose quote lines breaks body ++ rest = quote :: inner
      ∧ readQuoted? quote inner = some (String.ofList text, rest) := by
  cases lines with
  | false =>
    refine ⟨body ++ quote :: rest, by simp [enclose], ?_⟩
    have hread : readText? quote ((body ++ quote :: rest).length + 1) [] (body ++ quote :: rest)
        = some (String.ofList text, rest) := by
      refine readText?_of_says h ?_ []
      rw [List.length_append]
      omega
    -- two quotes at the front would open a text on several lines
    have hfront : ∀ r, body ++ quote :: rest ≠ quote :: quote :: r := by
      intro r hr
      cases h with
      | done =>
        obtain rfl : rest = quote :: r := (List.cons.inj hr).2
        exact hrest rfl
      | plain hc => exact hc (List.cons.inj hr).1
      | escape => exact hquote.1 (List.cons.inj hr).1.symm
      | quote hlines => cases hlines
    unfold readQuoted?
    split
    · rename_i a b r heq
      rw [if_neg]
      · exact heq ▸ hread
      · rintro ⟨rfl, rfl⟩
        exact hfront r heq
    · exact hread
  | true =>
    have hread : ∀ {fuel}, (body ++ List.replicate 3 quote ++ rest).length < fuel →
        readLines? quote fuel [] (body ++ List.replicate 3 quote ++ rest)
          = some (String.ofList text, rest) := by
      intro fuel hfuel
      refine readLines?_of_says hquote h ?_ [] hrest
      rw [List.length_append, List.length_append] at hfuel
      omega
    cases breaks with
    | true =>
      refine ⟨quote :: quote :: '\n' :: (body ++ List.replicate 3 quote ++ rest),
        by simp [enclose, List.replicate], ?_⟩
      rw [readQuoted?, if_pos ⟨rfl, rfl⟩]
      exact hread (Nat.lt_succ_of_lt (Nat.lt_succ_self _))
    | false =>
      refine ⟨quote :: quote :: (body ++ List.replicate 3 quote ++ rest),
        by simp [enclose, List.replicate], ?_⟩
      have hline : newline? (body ++ List.replicate 3 quote ++ rest) = none := by
        have hreturn := h.head_ne_return hquote.2.2
        have hbreak := hbreaks rfl
        cases body with
        | nil => exact newline?_eq_none (by simpa using hquote.2.1) (by simpa using hquote.2.2)
        | cons c body => exact newline?_eq_none hbreak hreturn
      rw [readQuoted?, if_pos ⟨rfl, rfl⟩, hline]
      exact hread (Nat.lt_succ_self _)

end Reader

/-! ## What the writer writes -/

/-- A character that needs no escape stands for itself, or breaks the line. -/
theorem isPlain_or_break {c : Char} (h : needsEscape c = false) : isPlain c = true ∨ c = '\n' := by
  by_cases hbreak : c = '\n'
  · exact Or.inr hbreak
  · left
    simp only [needsEscape, Bool.or_eq_false_iff, Bool.and_eq_false_iff, decide_eq_false_iff_not,
      not_not, hbreak, or_false] at h
    simp only [isPlain, Bool.or_eq_true, Bool.and_eq_true, decide_eq_true_iff]
    obtain ⟨hcontrol | htab, hdelete⟩ := h
    · exact Or.inr ⟨by omega, hdelete⟩
    · exact Or.inl (by simpa using htab)

/-- The escape of a control character by its number names it. -/
theorem exists_codeEscape {c : Char} (h : needsEscape c = true) :
    ∃ code, codeEscape c = '\\' :: code ∧ IsCode code c := by
  have htable : ∀ n < 128, needsEscape (Char.ofNat n) = true →
      ((codeEscape (Char.ofNat n)).drop 2).length = 4
        ∧ (hexDigits? ((codeEscape (Char.ofNat n)).drop 2)).bind charOf? = some (Char.ofNat n) := by
    decide
  have hlt : c.toNat < 128 := by
    simp only [needsEscape, Bool.or_eq_true, Bool.and_eq_true, decide_eq_true_iff] at h
    omega
  have hof : Char.ofNat c.toNat = c := Char.ofNat_toNat c
  obtain ⟨hlength, hvalue⟩ := htable c.toNat hlt (hof.symm ▸ h)
  rw [hof] at hlength hvalue
  refine ⟨'u' :: (codeEscape c).drop 2, rfl, fun rest => ⟨?_, rfl⟩⟩
  show readCode? 4 ((codeEscape c).drop 2 ++ rest) = _
  have hlong : ¬((codeEscape c).drop 2 ++ rest).length < 4 := by
    rw [List.length_append]
    omega
  rw [readCode?, if_neg hlong, List.take_left' hlength, List.drop_left' hlength, hvalue]

/-- A character other than the double quote is written as it is or as an escape that names it. -/
theorem escapeChar_eq (lines : Bool) {c : Char} (hquote : c ≠ '"') :
    (∃ code, escapeChar lines c = '\\' :: code ∧ IsCode code c)
      ∨ escapeChar lines c = [c] ∧ c ≠ '\\' ∧ (isPlain c = true ∨ lines = true ∧ c = '\n') := by
  unfold escapeChar
  split
  · exact Or.inl ⟨['b'], rfl, fun rest => ⟨rfl, rfl⟩⟩
  · exact Or.inl ⟨['t'], rfl, fun rest => ⟨rfl, rfl⟩⟩
  · cases lines with
    | true => exact Or.inr ⟨rfl, by decide, Or.inr ⟨rfl, rfl⟩⟩
    | false => exact Or.inl ⟨['n'], rfl, fun rest => ⟨rfl, rfl⟩⟩
  · exact Or.inl ⟨['f'], rfl, fun rest => ⟨rfl, rfl⟩⟩
  · exact Or.inl ⟨['r'], rfl, fun rest => ⟨rfl, rfl⟩⟩
  · exact Or.inl ⟨['\\'], rfl, fun rest => ⟨rfl, rfl⟩⟩
  · rename_i hbreak _ _ hbackslash
    cases hc : needsEscape c with
    | true => exact Or.inl (exists_codeEscape hc)
    | false =>
      refine Or.inr ⟨rfl, hbackslash, Or.inl ?_⟩
      exact (isPlain_or_break hc).resolve_right hbreak

/-- Not more quotes stand at the front than may follow those that were written. -/
theorem run_escapedAfter (lines : Bool) {run : Nat} (hrun : run ≤ 2) (cs : List Char) :
    ((escapedAfter lines run cs).takeWhile (· = '"')).length ≤ 2 - run := by
  fun_induction escapedAfter lines run cs with
  | case1 => exact Nat.zero_le _
  | case2 run r hraw ih =>
    simp only [Bool.and_eq_true, decide_eq_true_iff] at hraw
    have hmore := ih (by omega)
    rw [List.takeWhile_cons_of_pos (by simp), List.length_cons]
    omega
  | case3 => simp
  | case4 run c r hquote ih =>
    have hne : c ≠ '"' := hquote
    rcases escapeChar_eq lines hne with ⟨code, hcode, -⟩ | ⟨hself, -⟩
    · rw [hcode]
      simp
    · rw [hself]
      simp [hne]

/-- **What is written between double quotes says the text.** -/
theorem says_escapedAfter (lines : Bool) (run : Nat) (cs : List Char) :
    Says '"' lines (escapedAfter lines run cs) cs := by
  fun_induction escapedAfter lines run cs with
  | case1 => exact .done
  | case2 run r hraw ih =>
    simp only [Bool.and_eq_true, decide_eq_true_iff] at hraw
    have hmore := @run_escapedAfter lines (run + 1) (by omega) r
    exact .quote hraw.1 (by omega) ih
  | case3 run r hraw ih =>
    have hcode : IsCode ['"'] '"' := fun rest => ⟨rfl, rfl⟩
    exact .escape rfl hcode ih
  | case4 run c r hquote ih =>
    have hne : c ≠ '"' := hquote
    rcases escapeChar_eq lines hne with ⟨code, hcode, his⟩ | ⟨hself, hbackslash, hc⟩
    · rw [hcode]
      exact .escape rfl his ih
    · rw [hself]
      exact .plain hne (fun h => hbackslash h.1) hc ih

theorem longestRunAfter_mono (c : Char) (cs : List Char) {run run' : Nat} (h : run ≤ run') :
    longestRunAfter c run cs ≤ longestRunAfter c run' cs := by
  induction cs generalizing run run' with
  | nil => exact h
  | cons d r ih =>
    simp only [longestRunAfter]
    split
    · exact ih (by omega)
    · omega

/-- The longest run is at least the one that goes on at the front. -/
theorem run_le_longestRunAfter (c : Char) (run : Nat) (cs : List Char) :
    run + (cs.takeWhile (· = c)).length ≤ longestRunAfter c run cs := by
  induction cs generalizing run with
  | nil => exact Nat.le_refl _
  | cons d r ih =>
    simp only [longestRunAfter, List.takeWhile_cons, decide_eq_true_eq]
    split
    · have hmore := ih (run + 1)
      rw [List.length_cons]
      omega
    · exact le_max_left _ _

theorem longestRun_tail (c d : Char) (cs : List Char) :
    longestRun c cs ≤ longestRun c (d :: cs) := by
  simp only [longestRun, longestRunAfter]
  split
  · exact longestRunAfter_mono c cs (Nat.zero_le _)
  · exact le_max_right _ _

/-- **A text says itself between single quotes**, if it needs no escapes and has no longer run of
quotes than may stand there. -/
theorem says_self {lines : Bool} {cs : List Char} (hplain : cs.any needsEscape = false)
    (hbreaks : lines = false → '\n' ∉ cs) (hrun : longestRun '\'' cs ≤ if lines then 2 else 0) :
    Says '\'' lines cs cs := by
  induction cs with
  | nil => exact .done
  | cons c cs ih =>
    simp only [List.any_cons, Bool.or_eq_false_iff] at hplain
    have hrest : Says '\'' lines cs cs := by
      refine ih hplain.2 (fun hlines hmem => ?_) ((longestRun_tail _ c cs).trans hrun)
      exact hbreaks hlines (List.mem_cons_of_mem _ hmem)
    have hfront := (run_le_longestRunAfter '\'' 0 (c :: cs)).trans hrun
    by_cases hquote : c = '\''
    · subst hquote
      rw [List.takeWhile_cons_of_pos (by simp), List.length_cons] at hfront
      cases lines with
      | false => simp at hfront
      | true => exact .quote rfl (by simpa using hfront) hrest
    · refine .plain hquote (by simp) ?_ hrest
      rcases isPlain_or_break hplain.1 with hc | rfl
      · exact Or.inl hc
      · cases lines with
        | false => exact absurd List.mem_cons_self (hbreaks rfl)
        | true => exact Or.inr ⟨rfl, rfl⟩

/-- **A text is read back as it was written**, if no other quote follows. -/
theorem readScalar?_quoted (s : String) {rest : List Char}
    (hrest : ∀ c ∈ rest.head?, c ≠ '"' ∧ c ≠ '\'') :
    readScalar? ((quoted s).toList ++ rest) = some (.string s, rest) := by
  have hdouble : ∀ {lines : Bool},
      readScalar? (enclose '"' lines (s.toList.contains '\n') (escapedAfter lines 0 s.toList)
        ++ rest)
        = some (.string s, rest) := by
    intro lines
    have hsays := says_escapedAfter lines 0 s.toList
    have hbreaks : s.toList.contains '\n' = false →
        (escapedAfter lines 0 s.toList).head? ≠ some '\n' :=
      fun h => hsays.head_ne_break (by decide) (by simpa using h)
    obtain ⟨inner, hinner, hread⟩ :=
      readQuoted?_enclose (by decide) hsays hbreaks fun h => (hrest _ h).1 rfl
    rw [hinner, readScalar?, hread, Option.map_some, String.ofList_toList]
  have hsingle : ∀ {lines : Bool}, s.toList.any needsEscape = false →
      (lines = false → '\n' ∉ s.toList) →
      longestRun '\'' s.toList ≤ (if lines then 2 else 0) →
      readScalar? (enclose '\'' lines (s.toList.contains '\n') s.toList ++ rest)
        = some (.string s, rest) := by
    intro lines hplain hlines hrun
    have hsays := says_self hplain hlines hrun
    have hbreaks : s.toList.contains '\n' = false → s.toList.head? ≠ some '\n' :=
      fun h => hsays.head_ne_break (by decide) (by simpa using h)
    obtain ⟨inner, hinner, hread⟩ :=
      readQuoted?_enclose (by decide) hsays hbreaks fun h => (hrest _ h).2 rfl
    rw [hinner, readScalar?, hread, Option.map_some, String.ofList_toList]
  unfold quoted
  dsimp only
  rw [String.toList_ofList]
  split
  · exact hdouble
  · rename_i hcontrol
    rw [Bool.not_eq_true] at hcontrol
    split
    · exact hdouble
    · split
      · rename_i hone
        simp only [Bool.and_eq_true, Bool.not_eq_true', decide_eq_true_iff] at hone
        exact hsingle hcontrol (fun _ => by simpa using hone.1) (by simp [hone.2])
      · split
        · exact hdouble
        · split
          · rename_i htwo
            exact hsingle hcontrol (fun h => by cases h) (by simpa using htwo)
          · exact hdouble

end RecordQuery.Toml
