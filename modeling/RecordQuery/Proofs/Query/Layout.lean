import RecordQuery.Proofs.Query.Composition

/-!
# Layout

What of a query is only layout. A text is another one laid out anew (`Relaid`) when it has other
blanks between its tokens and its keywords in other letter cases. There may be blanks where there
were none, but where there were some there still are. Then both texts have tokens of the same
sense (`Relaid.tokens`), and so are read as the same tree but for offsets
(`exists_parse_of_senses`).

What has to be shown is that the end of a token does not move. In front of blanks no token
goes on. Where no blanks are put in, the next token may be a keyword in another case, and it
may be a name after a number: then the rest has an exponent at its front only if it had one
before (`Relaid.endsAs`).
-/

namespace RecordQuery

namespace Lexer

/-- **A source in another letter case**, which only a keyword may be. -/
def Recased (kind : TokenKind) (source source' : List Char) : Prop :=
  source' = source ∨ kind.isKeyword = true ∧ source'.map Char.toLower = source.map Char.toLower

/-- **A text laid out anew.** Both texts are blanks, or they begin with blanks and with the same
token. Blanks may be put in, and blanks may be others, but not none. -/
inductive Relaid : List Char → List Char → Prop
  | stop {gap gap' : List Char} (hgap : ∀ d ∈ gap, Text.isBlank d = true)
      (hgap' : ∀ d ∈ gap', Text.isBlank d = true) : Relaid gap gap'
  | token {gap gap' source' rest rest' : List Char} {c : Char} {l : Lexeme}
      (hgap : ∀ d ∈ gap, Text.isBlank d = true) (hgap' : ∀ d ∈ gap', Text.isBlank d = true)
      (hkept : gap ≠ [] → gap' ≠ []) (hc : Text.isBlank c = false) (hl : lexeme c rest = .ok l)
      (hsource : Recased l.kind (c :: rest.take l.more) source')
      (h : Relaid (rest.drop l.more) rest') :
      Relaid (gap ++ c :: rest) (gap' ++ (source' ++ rest'))

/-- **A text that is cut into tokens is laid out as itself.** The induction follows the cuts. -/
theorem relaid_self {offset : Nat} {cs : List Char} :
    ∀ {ts : List Token}, tokensFrom offset cs = ts.map .ok → Relaid cs cs := by
  induction offset, cs using tokensFrom.induct with
  | case1 offset cs hnil =>
    intro _ _
    have hblank := (Text.trimLeft_eq_nil_iff cs).mp hnil
    exact .stop hblank hblank
  | case2 offset cs c rest hcons f hf =>
    intro ts hts
    rw [tokensFrom_eq, hcons] at hts
    simp only [hf] at hts
    cases ts with
    | nil => cases hts
    | cons t ts => cases (List.cons.inj hts).1
  | case3 offset cs start c rest hcons l hl =>
    rename_i ih
    intro ts hts
    obtain ⟨hcs, hc⟩ := Text.append_of_trimLeft hcons
    have hblank := List.all_eq_true.mp (List.all_takeWhile (p := Text.isBlank) (l := cs))
    rw [tokensFrom_eq, hcons] at hts
    simp only [hl] at hts
    cases ts with
    | nil => cases hts
    | cons t ts =>
      have hrest := Relaid.token hblank hblank id hc hl (Or.inl rfl) (ih (List.cons.inj hts).2)
      rwa [List.cons_append, List.take_append_drop, hcs] at hrest

/-! ## Keywords -/

section Keyword

variable {source : List Char} {word : String} {kind : TokenKind}

/-- The characters of a keyword are letters. -/
theorem isAlpha_of_keyword (hkey : (word, kind) ∈ keywords)
    (hcase : source.map Char.toLower = word.toList) :
    ∀ c ∈ source, c.isAlpha = true := by
  have hletters : ∀ k ∈ keywords, (k.1.toList.all fun d => d.isAlpha && d.toLower == d) = true := by
    decide +kernel
  intro c hc
  have hmem : c.toLower ∈ word.toList := hcase ▸ List.mem_map_of_mem hc
  have hcheck := List.all_eq_true.mp (hletters _ hkey) _ hmem
  obtain ⟨hletter, hlower⟩ := Bool.and_eq_true_iff.mp hcheck
  rcases eq_or_isAlpha_of_toLower_eq (beq_iff_eq.mp hlower).symm with heq | ⟨hc, -⟩
  · exact heq ▸ hletter
  · exact hc

/-- A keyword is one in any letter case. -/
theorem wordKind_of_keyword (hkey : (word, kind) ∈ keywords)
    (hcase : source.map Char.toLower = word.toList) :
    wordKind source = kind := by
  have htable : ∀ k ∈ keywords,
      wordKind k.1.toList = k.2 ∧ k.1.toList.map Char.toLower = k.1.toList := by
    decide +kernel
  obtain ⟨hkind, hlower⟩ := htable _ hkey
  dsimp only at hkind hlower
  rw [← hkind]
  unfold wordKind
  rw [hcase, hlower]

/-- **A keyword is cut off whole in any letter case.** -/
theorem exists_lexeme_of_keyword (hkey : (word, kind) ∈ keywords)
    (hcase : source.map Char.toLower = word.toList) {rest : List Char} (hrest : Stops rest) :
    ∃ c tail, source = c :: tail ∧ Text.isBlank c = false
      ∧ lexeme c (tail ++ rest) = .ok ⟨kind, source, tail.length⟩ := by
  have hletters := isAlpha_of_keyword hkey hcase
  cases source with
  | nil =>
    have hnonempty : ∀ k ∈ keywords, k.1.toList ≠ [] := by decide
    exact absurd hcase.symm (hnonempty _ hkey)
  | cons c tail =>
    obtain ⟨hc, htail⟩ := List.forall_mem_cons.mp hletters
    have hstarts : startsWord c = true := by simp [startsWord, hc]
    have hcontinues : ∀ d ∈ tail, continuesWord d = true := fun d hd => by
      simp [continuesWord, Char.isAlphanum, htail d hd]
    refine ⟨c, tail, rfl, isBlank_of_startsWord hstarts, ?_⟩
    rw [lexeme_of_startsWord hstarts, Lexer.word,
      (takeWhile_append_of_stops (fun _ h => h) hcontinues hrest).1, wordKind_of_keyword hkey hcase]

end Keyword

/-- A token that is a keyword is one of the table. -/
theorem Denotes.exists_keyword {source : List Char} {kind : TokenKind} {text : String}
    (h : Denotes source kind text) (hkind : kind.isKeyword = true) :
    ∃ word, (word, kind) ∈ keywords ∧ source.map Char.toLower = word.toList := by
  cases h with
  | keyword hkey hcase => exact ⟨_, hkey, hcase⟩
  | @operator op hop => cases op <;> simp_all [TokenKind.isKeyword, Operator.takesList]
  | bracket hc =>
    simp only [brackets, List.mem_cons, List.not_mem_nil, or_false, Prod.mk.injEq] at hc
    rcases hc with ⟨-, rfl⟩ | ⟨-, rfl⟩ | ⟨-, rfl⟩ | ⟨-, rfl⟩ | ⟨-, rfl⟩ <;> cases hkind
  | name | int | float | string => cases hkind

/-! ## Where tokens end -/

/-- No word and no operator goes on with a blank. -/
theorem not_continues_of_isBlank {c : Char} (hc : Text.isBlank c = true) :
    continuesWord c = false ∧ c ≠ '=' := by
  constructor
  · by_contra hword
    rw [Bool.not_eq_false] at hword
    simp only [continuesWord, Char.isAlphanum, Bool.or_eq_true, decide_eq_true_iff] at hword
    have hstarts : ∀ {c : Char}, startsWord c = true → Text.isBlank c ≠ true :=
      fun hstarts hblank =>
      absurd (hblank.symm.trans (isBlank_of_startsWord hstarts)) Bool.noConfusion
    rcases hword with ((hletter | hdigit) | rfl) | rfl
    · exact hstarts (by simp [startsWord, hletter]) hc
    · simp only [Char.isDigit_iff_toNat, Char.reduceToNat] at hdigit
      exact absurd (hc.symm.trans (Text.isBlank_of_ascii (by omega) (by omega))) Bool.noConfusion
    · exact absurd hc (by decide)
    · exact absurd hc (by decide)
  · rintro rfl
    exact absurd hc (by decide)

/-- The front of a source in another letter case. -/
theorem Recased.exists_cons {kind : TokenKind} {c : Char} {tail source' : List Char}
    (h : Recased kind (c :: tail) source') :
    ∃ c' tail', source' = c' :: tail' ∧ c'.toLower = c.toLower := by
  rcases h with rfl | ⟨-, hlower⟩
  · exact ⟨c, tail, rfl, rfl⟩
  · obtain ⟨c', tail', rfl, hc', -⟩ := List.map_eq_cons_iff.mp (hlower.trans List.map_cons)
    exact ⟨c', tail', rfl, hc'⟩

/-- A source in another letter case begins with no blank if the first one does not. -/
theorem isBlank_of_toLower_eq {c c' : Char} (h : c'.toLower = c.toLower)
    (hc : Text.isBlank c = false) :
    Text.isBlank c' = false := by
  rcases eq_or_isAlpha_of_toLower_eq h with rfl | ⟨hletter, -⟩
  · exact hc
  · exact isBlank_of_startsWord (by simp [startsWord, hletter])

/-- A source in another letter case is as long. -/
theorem Recased.length_eq {kind : TokenKind} {source source' : List Char}
    (h : Recased kind source source') :
    source'.length = source.length := by
  rcases h with rfl | ⟨-, hlower⟩
  · rfl
  · simpa using congrArg List.length hlower

section Front

variable {r r' : List Char}

/-- **A text that is laid out anew without a blank in front** begins with a token, and
the first text does too. -/
theorem Relaid.exists_token (h : Relaid r r') {d : Char} (hd : d ∈ r'.head?)
    (hblank : Text.isBlank d = false) :
    ∃ c rest l tail' rest', r = c :: rest ∧ r' = d :: (tail' ++ rest') ∧ c.toLower = d.toLower
      ∧ lexeme c rest = .ok l ∧ Recased l.kind (c :: rest.take l.more) (d :: tail')
      ∧ Relaid (rest.drop l.more) rest' := by
  cases h with
  | stop _ hgap' =>
    exact absurd ((hgap' d (List.mem_of_mem_head? hd)).symm.trans hblank) Bool.noConfusion
  | @token gap gap' source' rest rest' c l _ hgap' hkept _ hl hsource h =>
    cases gap' with
    | cons b gap' =>
      obtain rfl : b = d := Option.some.inj hd
      exact absurd ((hgap' b List.mem_cons_self).symm.trans hblank) Bool.noConfusion
    | nil =>
      obtain rfl : gap = [] := by
        by_contra hne
        exact hkept hne rfl
      obtain ⟨c', tail', rfl, hlower⟩ := hsource.exists_cons
      obtain rfl : c' = d := Option.some.inj hd
      exact ⟨c, rest, l, tail', rest', rfl, rfl, hlower.symm, hl, hsource, h⟩

/-- **A sign of a number is followed by a digit**, since no token is a sign alone. -/
theorem Relaid.exists_digit (h : Relaid r r') {s : Char} (hs : s ∈ r'.head?)
    (hsign : s = '+' ∨ s = '-') :
    ∃ d rest, r = s :: d :: rest ∧ d.isDigit = true := by
  have hblank : Text.isBlank s = false := by rcases hsign with rfl | rfl <;> decide
  have hletter : s.isAlpha = false := by rcases hsign with rfl | rfl <;> decide
  obtain ⟨c, rest, l, tail', rest', rfl, -, hlower, hl, -, -⟩ := h.exists_token hs hblank
  obtain rfl := eq_of_toLower_eq hletter hlower
  rcases hsign with rfl | rfl
  · exact nomatch hl
  · have hl : number '-' rest = .ok l := hl
    unfold number at hl
    dsimp only at hl
    split at hl
    · cases hl
    · rename_i hdigits
      cases rest with
      | nil => exact absurd ⟨rfl, rfl⟩ hdigits
      | cons d rest =>
        refine ⟨d, rest, rfl, ?_⟩
        by_contra hd
        exact hdigits ⟨rfl, List.takeWhile_cons_of_neg hd⟩

/-- A letter alone is no exponent. -/
theorem exponent_alone (e : Char) : Lexer.exponent [e] = [] := by
  simp [Lexer.exponent]

/-- An exponent without a sign has a digit behind its letter. -/
theorem exponent_eq_nil_iff {e s : Char} (he : e = 'e' ∨ e = 'E') (hs : ¬ (s = '+' ∨ s = '-'))
    (rest : List Char) :
    Lexer.exponent (e :: s :: rest) = [] ↔ s.isDigit = false := by
  rw [exponent_digits he hs]
  cases hdigit : s.isDigit <;> simp [hdigit]

/-- **Behind the letter of an exponent that is a name of its own**, no exponent comes
about: the next token does not begin with a digit, and one that begins with a sign
keeps the digit after it. -/
theorem Relaid.exponent_behind (h : Relaid r r') {e : Char} (he : e = 'e' ∨ e = 'E')
    (hstops : Stops r) (hr : Lexer.exponent (e :: r) = []) : Lexer.exponent (e :: r') = [] := by
  cases r' with
  | nil => exact exponent_alone e
  | cons s r' =>
    by_cases hsign : s = '+' ∨ s = '-'
    · obtain ⟨d, after, rfl, hd⟩ := h.exists_digit rfl hsign
      rw [exponent_sign he hsign] at hr
      simp [hd] at hr
    · rw [exponent_eq_nil_iff he hsign]
      by_contra hdigit
      have hcontinues := continuesWord_of_isDigit (Bool.not_eq_false _ ▸ hdigit)
      have hblank : Text.isBlank s = false := by
        by_contra hblank
        rw [Bool.not_eq_false] at hblank
        exact absurd ((not_continues_of_isBlank hblank).1.symm.trans hcontinues) Bool.noConfusion
      obtain ⟨d, after, -, -, -, rfl, -, hlower, -⟩ := h.exists_token rfl hblank
      have hd : continuesWord d = true := (ignoresCase_continuesWord d s hlower).trans hcontinues
      exact absurd ((hstops d rfl).symm.trans hd) Bool.noConfusion

/-- **Where no exponent was, there is none.** The letter of an exponent begins a name. What stands
behind it belongs to the name, or to the next token if the name is that letter
(`Relaid.exponent_behind`). -/
theorem Relaid.exponent (h : Relaid r r') (hr : Lexer.exponent r = []) :
    Lexer.exponent r' = [] := by
  by_contra hne
  obtain ⟨e, he, hletter⟩ : ∃ e ∈ r'.head?, e = 'e' ∨ e = 'E' := by
    cases r' with
    | nil => exact absurd rfl hne
    | cons e r' => exact ⟨e, rfl, by_contra fun he => hne (exponent_of_ne he r')⟩
  have hblank : Text.isBlank e = false := by rcases hletter with rfl | rfl <;> decide
  have hstarts : startsWord e = true := by rcases hletter with rfl | rfl <;> decide
  obtain ⟨c, rest, l, tail', rest', rfl, rfl, hlower, hl, hsource, hrest⟩ :=
    h.exists_token he hblank
  obtain ⟨-, hdenotes⟩ := takes_of_lexeme hl
  rcases hsource with hsame | ⟨hkeyword, hcase⟩
  · obtain ⟨rfl, rfl⟩ := List.cons.inj hsame
    obtain ⟨-, hword, hstops⟩ := stops_of_lexeme hstarts hl
    rw [← List.take_append_drop l.more rest] at hr
    cases hsrc : rest.take l.more with
    | nil =>
      rw [hsrc, List.nil_append] at hr hne
      exact hne (hrest.exponent_behind hletter hstops hr)
    | cons s src =>
      rw [hsrc] at hr hne hword
      have hsign : ¬ (s = '+' ∨ s = '-') := by
        rintro (rfl | rfl)
        · exact absurd (hword _ List.mem_cons_self) (by decide)
        · exact absurd (hword _ List.mem_cons_self) (by decide)
      rw [List.cons_append, exponent_eq_nil_iff hletter hsign] at hr hne
      exact hne hr
  · -- no keyword begins with the letter
    obtain ⟨word, hkey, hword⟩ := hdenotes.exists_keyword hkeyword
    have htable : ∀ k ∈ keywords, k.1.toList.head? ≠ some 'e' := by decide +kernel
    refine htable _ hkey ?_
    rw [← hword, ← hcase]
    rcases hletter with rfl | rfl <;> rfl

/-- **A text laid out anew ends tokens alike.** -/
theorem Relaid.endsAs (h : Relaid r r') : EndsAs r r' := by
  refine ⟨fun d hd => ?_, h.exponent⟩
  cases hblank : Text.isBlank d with
  | true => exact Or.inl (not_continues_of_isBlank hblank)
  | false =>
    obtain ⟨c, rest, -, -, -, rfl, -, hlower, -⟩ := h.exists_token hd hblank
    exact Or.inr ⟨c, rfl, hlower⟩

end Front

/-- **A text laid out anew is blank** if the first one is, and only then. -/
theorem Relaid.forall_isBlank_iff {cs cs' : List Char} (h : Relaid cs cs') :
    (∀ d ∈ cs', Text.isBlank d = true) ↔ ∀ d ∈ cs, Text.isBlank d = true := by
  cases h with
  | stop hgap hgap' => exact ⟨fun _ => hgap, fun _ => hgap'⟩
  | token _ _ _ hc _ hsource _ =>
    obtain ⟨c', tail', rfl, hlower⟩ := hsource.exists_cons
    have hc' := isBlank_of_toLower_eq hlower hc
    constructor
    · exact fun hall => absurd ((hall c' (by simp)).symm.trans hc') Bool.noConfusion
    · exact fun hall => absurd ((hall _ (by simp)).symm.trans hc) Bool.noConfusion

/-! ## Comparing layouts -/

instance (kind : TokenKind) (source source' : List Char) :
    Decidable (Recased kind source source') :=
  inferInstanceAs (Decidable (_ ∨ _ ∧ _))

/-- **Compares two texts token by token**: whether the second one is the first one laid out anew. -/
def isRelaid (cs cs' : List Char) : Bool :=
  match _h : Text.trimLeft cs with
  | [] => cs'.all Text.isBlank
  | c :: rest =>
    match lexeme c rest with
    | .error _ => false
    | .ok l =>
      let after := Text.trimLeft cs'
      (cs.takeWhile Text.isBlank = [] || cs'.takeWhile Text.isBlank ≠ [])
        && decide (Recased l.kind (c :: rest.take l.more) (after.take (l.more + 1)))
        && isRelaid (rest.drop l.more) (after.drop (l.more + 1))
termination_by cs.length
decreasing_by
  have := Text.length_trimLeft_le cs
  simp only [_h, List.length_cons] at this
  simp only [List.length_drop]
  omega

/-- The blanks at the front of a text whose first other character is known. -/
theorem span_blanks {gap : List Char} {c : Char} (hgap : ∀ d ∈ gap, Text.isBlank d = true)
    (hc : Text.isBlank c = false) (rest : List Char) : Text.trimLeft (gap ++ c :: rest) = c :: rest
      ∧ (gap ++ c :: rest).takeWhile Text.isBlank = gap := by
  have hhalts : Halts Text.isBlank gap (c :: rest) := fun _ d hd => Option.some.inj hd ▸ hc
  obtain ⟨htake, hdrop⟩ := span_of_halts hhalts
  rw [Text.trimLeft, htake, hdrop]
  constructor
  · rw [List.dropWhile_eq_nil_iff.mpr hgap, List.nil_append]
  · exact List.takeWhile_eq_self_iff.mpr hgap

theorem isRelaid_eq (cs cs' : List Char) :
    isRelaid cs cs' = match Text.trimLeft cs with
      | [] => cs'.all Text.isBlank
      | c :: rest =>
        match lexeme c rest with
        | .error _ => false
        | .ok l =>
          (cs.takeWhile Text.isBlank = [] || cs'.takeWhile Text.isBlank ≠ [])
            && decide (Recased l.kind (c :: rest.take l.more)
              ((Text.trimLeft cs').take (l.more + 1)))
            && isRelaid (rest.drop l.more) ((Text.trimLeft cs').drop (l.more + 1)) := by
  rw [isRelaid]
  split
  · rename_i h
    rw [h]
  · rename_i h
    exact h ▸ rfl

/-- **The comparison finds every layout**, and nothing else. -/
theorem isRelaid_eq_true_iff {cs cs' : List Char} : isRelaid cs cs' = true ↔ Relaid cs cs' := by
  have hfront : ∀ cs : List Char, ∀ d ∈ cs.takeWhile Text.isBlank, Text.isBlank d = true := fun _ =>
    List.all_eq_true.mp List.all_takeWhile
  constructor
  · intro h
    induction cs, cs' using isRelaid.induct with
    | case1 cs cs' hnil =>
      rw [isRelaid_eq, hnil] at h
      exact .stop ((Text.trimLeft_eq_nil_iff cs).mp hnil) (List.all_eq_true.mp h)
    | case2 cs cs' c rest hcons f hf =>
      rw [isRelaid_eq, hcons] at h
      simp [hf] at h
    | case3 cs cs' c rest hcons l hl after ih =>
      obtain ⟨hcs, hc⟩ := Text.append_of_trimLeft hcons
      rw [isRelaid_eq, hcons] at h
      simp only [hl, Bool.and_eq_true, Bool.or_eq_true, decide_eq_true_iff] at h
      obtain ⟨⟨hkept, hsource⟩, hrest⟩ := h
      have hcs' : cs'.takeWhile Text.isBlank
          ++ (after.take (l.more + 1) ++ after.drop (l.more + 1)) = cs' := by
        rw [List.take_append_drop]
        exact List.takeWhile_append_dropWhile
      have htoken :=
        Relaid.token (hfront cs) (hfront cs') (fun hne => hkept.resolve_left hne) hc hl hsource
        (ih hrest)
      rwa [hcs, hcs'] at htoken
  · intro h
    induction h with
    | stop hgap hgap' =>
      rw [isRelaid_eq, (Text.trimLeft_eq_nil_iff _).mpr hgap]
      exact List.all_eq_true.mpr hgap'
    | @token gap gap' source' rest rest' c l hgap hgap' hkept hc hl hsource h ih =>
      obtain ⟨hmore, -⟩ := takes_of_lexeme hl
      have hlength : source'.length = l.more + 1 := by
        rw [hsource.length_eq, List.length_cons, List.length_take_of_le hmore]
      obtain ⟨c', tail', rfl, hlower⟩ := hsource.exists_cons
      obtain ⟨htrim, hspan⟩ := span_blanks hgap hc rest
      obtain ⟨htrim', hspan'⟩ :=
        span_blanks hgap' (isBlank_of_toLower_eq hlower hc) (tail' ++ rest')
      rw [← List.cons_append] at htrim' hspan'
      rw [isRelaid_eq, htrim]
      simp only [hl, htrim', hspan, hspan', List.take_left' hlength, List.drop_left' hlength,
        hsource, ih]
      simpa using or_iff_not_imp_left.mpr hkept

instance (cs cs' : List Char) : Decidable (Relaid cs cs') := decidable_of_iff _ isRelaid_eq_true_iff

/-! ## Tokens -/

/-- **A token in another letter case has the same sense**, in front of a rest that ends it alike. -/
theorem exists_lexeme_of_recased {c : Char} {rest source' rest' : List Char} {l : Lexeme}
    (hc : Text.isBlank c = false) (hl : lexeme c rest = .ok l)
    (hsource : Recased l.kind (c :: rest.take l.more) source')
    (hrest : EndsAs (rest.drop l.more) rest') :
    ∃ c' tail' l', source' = c' :: tail' ∧ Text.isBlank c' = false
      ∧ lexeme c' (tail' ++ rest') = .ok l'
      ∧ l'.more = tail'.length
      ∧ ∀ offset offset', (⟨l'.kind, String.ofList l'.text, offset'⟩ : Token).sense
        = (⟨l.kind, String.ofList l.text, offset⟩ : Token).sense := by
  obtain ⟨hmore, hdenotes⟩ := takes_of_lexeme hl
  rcases hsource with rfl | ⟨hkeyword, hcase⟩
  · have hlength : l.more = (rest.take l.more).length := (List.length_take_of_le hmore).symm
    rw [← List.take_append_drop l.more rest] at hl
    exact ⟨c, rest.take l.more, l, rfl, hc, lexeme_of_endsAs hrest hl hlength, hlength,
      fun _ _ => rfl⟩
  · obtain ⟨word, hkey, hword⟩ := hdenotes.exists_keyword hkeyword
    have hletter : c.isAlpha = true := isAlpha_of_keyword hkey hword c List.mem_cons_self
    obtain ⟨htext, -, hstops⟩ := stops_of_lexeme (by simp [startsWord, hletter]) hl
    obtain ⟨c', tail', rfl, hc', hl'⟩ :=
      exists_lexeme_of_keyword hkey (hcase.trans hword) (hrest.stops hstops)
    refine ⟨c', tail', _, rfl, hc', hl', rfl, fun _ _ => ?_⟩
    simp only [Token.sense, hkeyword, if_true, String.toList_ofList, htext, hcase]

/-- **A text laid out anew has tokens of the same sense.** The induction is on the tokens. -/
theorem Relaid.tokens {cs cs' : List Char} (h : Relaid cs cs') (offset offset' : Nat) :
    ∃ ts ts' : List Token, tokensFrom offset cs = ts.map .ok ∧ tokensFrom offset' cs' = ts'.map .ok
      ∧ ts'.map Token.sense = ts.map Token.sense := by
  have hend : ∀ {gap : List Char} (offset : Nat), (∀ d ∈ gap, Text.isBlank d = true) →
      tokensFrom offset gap = [.ok (.endOfInput (offset + gap.length))] := by
    intro gap offset hgap
    rw [← List.append_nil gap, tokensFrom_append_blanks hgap, tokensFrom_nil, List.append_nil]
  induction h generalizing offset offset' with
  | stop hgap hgap' => exact ⟨[_], [_], hend offset hgap, hend offset' hgap', rfl⟩
  | @token gap gap' source' rest rest' c l hgap hgap' hkept hc hl hsource h ih =>
    obtain ⟨c', tail', l', rfl, hc', hl', hmore', hsense⟩ :=
      exists_lexeme_of_recased hc hl hsource h.endsAs
    obtain ⟨ts, ts', hts, hts', hsenses⟩ := ih (offset + gap.length + (l.more + 1))
      (offset' + gap'.length + (l'.more + 1))
    refine ⟨⟨l.kind, String.ofList l.text, offset + gap.length⟩ :: ts,
      ⟨l'.kind, String.ofList l'.text, offset' + gap'.length⟩ :: ts', ?_, ?_, ?_⟩
    · rw [tokensFrom_append_blanks hgap, tokensFrom_cons hc, hl]
      exact congrArg _ hts
    · rw [tokensFrom_append_blanks hgap', List.cons_append, tokensFrom_cons hc', hl']
      dsimp only
      rw [hmore', List.drop_left, ← hmore']
      exact congrArg _ hts'
    · rw [List.map_cons, List.map_cons, hsense, hsenses]

end Lexer

/-! ## Trees -/

/-- **Tokens of the same sense are the same query** but for offsets. -/
theorem Grammar.IsQuery.of_senses {n k : Nat} {ts ts' : List Token} {e : Expr}
    (hquery : IsQuery n k ts e) (h : ts'.map Token.sense = ts.map Token.sense) :
    ∃ e' : Expr, e'.bare = e.bare ∧ IsQuery n k ts' e' := by
  obtain ⟨stop, hstop, hd⟩ := hquery
  obtain ⟨xs, rfl, hmoved⟩ := hd.transport
  rw [List.map_append] at h
  obtain ⟨ys, last, rfl, hys, hlast⟩ := List.map_eq_append_iff.mp h
  obtain ⟨stop', rfl, hstop'⟩ := List.map_eq_singleton_iff.mp hlast
  obtain ⟨e', hbare, hd'⟩ := hmoved [stop'] hys _ rfl
  exact ⟨e', hbare, stop', (kind_of_sense_eq hstop').trans hstop, hd'⟩

/-- **Tokens of the same sense are read as the same tree** but for offsets. -/
theorem exists_parse_of_senses {q q' : String} {ts ts' : List Token} {e : Expr}
    (hts : tokenize q = ts.map .ok) (hts' : tokenize q' = ts'.map .ok)
    (h : ts'.map Token.sense = ts.map Token.sense) (he : parse q = .ok e) :
    ∃ e', parse q' = .ok e' ∧ e'.bare = e.bare := by
  obtain ⟨n, k, hwrites⟩ := exists_writes_of_parse he
  obtain ⟨hn, hk⟩ := hwrites.parse_eq_ok_iff.mp he
  obtain ⟨us, hus, hlegal, hquery⟩ := hwrites
  obtain rfl : us = ts := eq_of_map_ok_eq (hus.symm.trans hts)
  obtain ⟨e', hbare, hquery'⟩ := hquery.of_senses h
  have hwrites' : Writes q' n k e' := ⟨ts', hts', forall_legal_of_senses_eq hlegal h, hquery'⟩
  exact ⟨e', hwrites'.parse_eq_ok_iff.mpr ⟨hn, hk⟩, hbare⟩

end RecordQuery
