import Mathlib.Control.Monad.Basic
import Mathlib.Data.List.TakeWhile
import RecordQuery.Proofs.Query.Escapes
import RecordQuery.Proofs.Query.Recognition

/-!
# Texts that spell tokens

How the tokens of a text are made up of the tokens of its parts. A text **spells** tokens
(`Spells`) when it is cut into these tokens whatever follows it, as long as what follows may: a
word or a number is spelled only if no character follows that would go on with it (`Stops`). Texts
that spell tokens can be put one after the other, and where the tokens stand makes no difference
to what they are, so spellings leave the offsets out (`Token.content`).

The tokens of a query end with the end of input, which stands nowhere else, unless an error comes
first (`tokensFrom_ends`). A name among them has the form of a name again (`IsName`).
-/

namespace RecordQuery

/-- What a token says, without its place. -/
def Token.content (t : Token) : TokenKind × String := (t.kind, t.text)

/-- Tokens are determined by the items that they are. -/
theorem eq_of_map_ok_eq {ts us : List Token}
    (h : (ts.map .ok : List (Except LexError Token)) = us.map .ok) :
    ts = us := (List.map_inj_right fun _ _ => Except.ok.inj).mp h

namespace Lexer

/-! ## Cutting a text -/

theorem tokensFrom_eq (offset : Nat) (cs : List Char) :
    tokensFrom offset cs
      = match Text.trimLeft cs with
        | [] => [.ok (.endOfInput (offset + (cs.takeWhile Text.isBlank).length))]
        | c :: rest =>
          match lexeme c rest with
          | .error f => [.error ⟨offset + (cs.takeWhile Text.isBlank).length + f.shift, f.cause⟩]
          | .ok l =>
            .ok ⟨l.kind, String.ofList l.text, offset + (cs.takeWhile Text.isBlank).length⟩
              :: tokensFrom (offset + (cs.takeWhile Text.isBlank).length + (l.more + 1))
                (rest.drop l.more) := by
  rw [tokensFrom]
  split
  · rename_i h
    rw [h]
  · rename_i h
    exact h ▸ rfl

theorem tokensFrom_nil (offset : Nat) : tokensFrom offset [] = [.ok (.endOfInput offset)] := by
  rw [tokensFrom_eq]
  rfl

/-- A blank only moves what follows it. -/
theorem tokensFrom_blank {c : Char} (hc : Text.isBlank c = true) (offset : Nat) (cs : List Char) :
    tokensFrom offset (c :: cs) = tokensFrom (offset + 1) cs := by
  have htrim : Text.trimLeft (c :: cs) = Text.trimLeft cs := List.dropWhile_cons_of_pos hc
  have hstart : offset + ((c :: cs).takeWhile Text.isBlank).length
      = offset + 1 + (cs.takeWhile Text.isBlank).length := by
    rw [List.takeWhile_cons_of_pos hc, List.length_cons, Nat.add_right_comm]
    rfl
  rw [tokensFrom_eq, tokensFrom_eq, htrim, hstart]

/-- Blanks only move what follows them. -/
theorem tokensFrom_append_blanks {gap : List Char} (hgap : ∀ d ∈ gap, Text.isBlank d = true)
    (offset : Nat) (cs : List Char) :
    tokensFrom offset (gap ++ cs) = tokensFrom (offset + gap.length) cs := by
  induction gap generalizing offset with
  | nil => rfl
  | cons c gap ih =>
    obtain ⟨hc, hgap⟩ := List.forall_mem_cons.mp hgap
    rw [List.cons_append, tokensFrom_blank hc, ih hgap, List.length_cons]
    congr 1
    omega

/-- A character that is no blank begins a token. -/
theorem tokensFrom_cons {c : Char} (hc : Text.isBlank c = false) (offset : Nat) (cs : List Char) :
    tokensFrom offset (c :: cs)
      = match lexeme c cs with
        | .error f => [.error ⟨offset + f.shift, f.cause⟩]
        | .ok l =>
          .ok ⟨l.kind, String.ofList l.text, offset⟩
            :: tokensFrom (offset + (l.more + 1)) (cs.drop l.more) := by
  have htrim : Text.trimLeft (c :: cs) = c :: cs := List.dropWhile_cons_of_neg (by simp [hc])
  have htake : (c :: cs).takeWhile Text.isBlank = [] := List.takeWhile_cons_of_neg (by simp [hc])
  rw [tokensFrom_eq, htrim, htake]
  rfl

/-! ## The tokens of a query -/

/-- **Whether a text is a name**: it has the form of a word and is no keyword. -/
def IsName (text : List Char) : Prop :=
  ∃ c tail, text = c :: tail ∧ startsWord c = true ∧ tail.all continuesWord = true
    ∧ wordKind text = .name

/-- **What is known of a token** that was cut off a text: it is not the end of input, and if it is
a name, it has the form of one. -/
def Lexeme.Sound (l : Lexeme) : Prop :=
  l.kind ≠ .endOfInput ∧ (l.kind = .name → IsName l.text)

theorem sound_word {c : Char} (hc : startsWord c = true) (rest : List Char) :
    Lexeme.Sound (word c rest) := by
  refine ⟨?_, fun h => ⟨c, _, rfl, hc, List.all_takeWhile, h⟩⟩
  show wordKind _ ≠ .endOfInput
  unfold wordKind
  split <;> simp

theorem sound_number {c : Char} {rest : List Char} {l : Lexeme} (h : number c rest = .ok l) :
    Lexeme.Sound l := by
  have hkind : ∀ {whole rest : List Char} {fraction : Bool},
      Lexeme.Sound (finishNumber whole rest fraction) := by
    intro whole rest fraction
    unfold finishNumber Lexeme.Sound
    dsimp only
    split <;> simp
  unfold number afterDigits at h
  dsimp only at h
  -- a minus or a point without a digit after it is an error
  split at h
  · exact nomatch h
  · split at h
    · split at h
      · exact nomatch h
      · exact Except.ok.inj h ▸ hkind
    · exact Except.ok.inj h ▸ hkind

theorem sound_string {c : Char} {rest : List Char} {l : Lexeme} (h : string c rest = .ok l) :
    Lexeme.Sound l := by
  unfold string at h
  split at h
  · exact nomatch h
  · exact Except.ok.inj h ▸ ⟨by simp, by simp⟩

/-- **What a text begins with is sound.** -/
theorem sound_of_lexeme {c : Char} {rest : List Char} {l : Lexeme} (h : lexeme c rest = .ok l) :
    Lexeme.Sound l := by
  have hordered : ∀ {c : Char} {long short : Operator},
      Lexeme.Sound (ordered c rest long short) := by
    intro c long short
    unfold ordered
    split <;> exact ⟨by simp, by simp⟩
  unfold lexeme at h
  split at h
  -- signs and strings are neither the end of input nor names
  all_goals first
    | exact Except.ok.inj h ▸ ⟨by simp [single], by simp [single]⟩
    | exact Except.ok.inj h ▸ hordered
    | exact sound_string h
    | skip
  · -- an exclamation mark begins an operator or nothing
    split at h
    · exact Except.ok.inj h ▸ ⟨by simp, by simp⟩
    · exact Except.ok.inj h ▸ ⟨by simp, by simp⟩
    · exact nomatch h
  · split at h
    · exact sound_number h
    · split at h
      · exact Except.ok.inj h ▸ sound_word ‹_› rest
      · exact nomatch h

/-- **The tokens of a text end once**, or in an error, and every name among them has the form of
one. The induction follows the cuts. -/
theorem tokensFrom_ends (offset : Nat) (cs : List Char) :
    ∃ body : List Token,
      (∀ t ∈ body, t.kind ≠ .endOfInput ∧ (t.kind = .name → IsName t.text.toList))
      ∧ ((∃ stop, tokensFrom offset cs = (body ++ [Token.endOfInput stop]).map .ok)
        ∨ ∃ e, tokensFrom offset cs = body.map .ok ++ [.error e]) := by
  induction offset, cs using tokensFrom.induct with
  | case1 offset cs hnil =>
    refine ⟨[], nofun, Or.inl ⟨offset + (cs.takeWhile Text.isBlank).length, ?_⟩⟩
    rw [tokensFrom_eq, hnil]
    rfl
  | case2 offset cs c rest hcons f hf =>
    let start := offset + (cs.takeWhile Text.isBlank).length
    refine ⟨[], nofun, Or.inr ⟨⟨start + f.shift, f.cause⟩, ?_⟩⟩
    rw [tokensFrom_eq, hcons]
    simp only [hf]
    rfl
  | case3 offset cs start c rest hcons l hl ih =>
    obtain ⟨body, hbody, hends⟩ := ih
    have hfirst : tokensFrom offset cs
        = .ok ⟨l.kind, String.ofList l.text, start⟩
          :: tokensFrom (start + (l.more + 1)) (rest.drop l.more) := by
      rw [tokensFrom_eq, hcons]
      simp only [hl]
      rfl
    refine ⟨⟨l.kind, String.ofList l.text, start⟩ :: body, List.forall_mem_cons.mpr ⟨?_, hbody⟩, ?_⟩
    · obtain ⟨hkind, hname⟩ := sound_of_lexeme hl
      exact ⟨hkind, fun h => by simpa using hname h⟩
    · rw [hfirst]
      rcases hends with ⟨stop, h⟩ | ⟨e, h⟩
      · exact Or.inl ⟨stop, by rw [h]; rfl⟩
      · exact Or.inr ⟨e, by rw [h]; rfl⟩

/-- Tokens without an error end once, and their names have the form of names. -/
theorem endsOnce_of_tokensFrom {offset : Nat} {cs : List Char} {ts : List Token}
    (h : tokensFrom offset cs = ts.map .ok) :
    EndsOnce ts ∧ ∀ t ∈ ts, t.kind = .name → IsName t.text.toList := by
  obtain ⟨body, hbody, ⟨stop, hstop⟩ | ⟨e, he⟩⟩ := tokensFrom_ends offset cs
  · obtain rfl : ts = body ++ [Token.endOfInput stop] := eq_of_map_ok_eq (h.symm.trans hstop)
    refine ⟨⟨body, _, rfl, rfl, fun t ht => (hbody t ht).1⟩, fun t ht hname => ?_⟩
    rcases List.mem_append.mp ht with ht | ht
    · exact (hbody t ht).2 hname
    · obtain rfl := List.mem_singleton.mp ht
      exact nomatch hname
  · have hmem : .error e ∈ ts.map Except.ok := by
      rw [← h, he]
      simp
    obtain ⟨t, -, ht⟩ := List.mem_map.mp hmem
    exact nomatch ht

end Lexer

/-- A query that is read has tokens without an error. -/
theorem exists_tokens_of_parse {q : String} {e : Expr} (h : parse q = .ok e) :
    ∃ ts : List Token, tokenize q = ts.map .ok := by
  obtain ⟨body, hbody, ⟨stop, hstop⟩ | ⟨err, herr⟩⟩ := Lexer.tokensFrom_ends 0 q.toList
  · exact ⟨_, hstop⟩
  · have hrun : Parser.run .initial 0 (body.map .ok ++ [.error err]) = .ok e := herr ▸ h
    exact absurd hrun (Parser.run_append_error_ne_ok fun t ht => (hbody t ht).1)

/-- **A token of a query that is read**: it is legal, and a name has the form of one. -/
def Token.Proper (t : Token) : Prop := t.Legal ∧ (t.kind = .name → Lexer.IsName t.text.toList)

/-- **What is read is a query of the grammar** that keeps the limits, of proper tokens. -/
theorem exists_query_of_parse {q : String} {e : Expr} (h : parse q = .ok e) :
    ∃ (ts : List Token) (n : Nat), tokenize q = ts.map .ok
      ∧ Grammar.IsQuery n e.comparisons.length ts e ∧ n ≤ nestingLimit
      ∧ e.comparisons.length ≤ termLimit ∧ ∀ t ∈ ts, t.Proper := by
  obtain ⟨ts, hts⟩ := exists_tokens_of_parse h
  obtain ⟨hends, hnames⟩ := Lexer.endsOnce_of_tokensFrom hts
  have hread : parseTokens (ts.map .ok) = .ok e := hts ▸ h
  obtain ⟨⟨n, k, hquery, hn, hk⟩, hlegal⟩ := (parseTokens_eq_ok_iff hends).mp hread
  obtain rfl : k = e.comparisons.length := hquery.terms_eq
  exact ⟨ts, n, hts, hquery, hn, hk, fun t ht => ⟨hlegal t ht, hnames t ht⟩⟩

namespace Lexer

/-! ## Spellings -/

/-- **Whether no word or number goes on** with a text. -/
def Stops (rest : List Char) : Prop := ∀ c ∈ rest.head?, continuesWord c = false

/-- **A text spells tokens** in front of every text that `ends` allows. -/
def Spells (ends : List Char → Prop) (cs : List Char) (contents : List (TokenKind × String)) :
    Prop :=
  ∀ offset rest, ends rest → ∃ (ts : List Token) (offset' : Nat),
    tokensFrom offset (cs ++ rest) = ts.map .ok ++ tokensFrom offset' rest
      ∧ ts.map Token.content = contents

section

variable {ends ends' : List Char → Prop} {cs ds : List Char} {xs ys : List (TokenKind × String)}

/-- **Spellings can be put one after the other**, if the second one may follow the first. -/
theorem Spells.append (h : Spells ends cs xs) (h' : Spells ends' ds ys)
    (hends : ∀ rest, ends' rest → ends (ds ++ rest)) : Spells ends' (cs ++ ds) (xs ++ ys) := by
  intro offset rest hrest
  obtain ⟨ts, middle, hts, hxs⟩ := h offset (ds ++ rest) (hends rest hrest)
  obtain ⟨us, offset', hus, hys⟩ := h' middle rest hrest
  refine ⟨ts ++ us, offset', ?_, ?_⟩
  · rw [List.append_assoc, hts, hus, List.map_append, List.append_assoc]
  · rw [List.map_append, hxs, hys]

/-- What spells tokens before any text spells them before some. -/
theorem Spells.of_always (h : Spells (fun _ => True) cs xs) : Spells ends cs xs :=
  fun offset rest _ => h offset rest trivial

/-- The empty text spells nothing. -/
theorem spells_nil : Spells ends [] [] := fun offset _ _ => ⟨[], offset, rfl, rfl⟩

/-- A blank spells nothing. -/
theorem spells_blank {c : Char} (hc : Text.isBlank c = true) : Spells (fun _ => True) [c] [] :=
  fun offset rest _ => ⟨[], offset + 1, tokensFrom_blank hc offset rest, rfl⟩

/-- A text that is one token spells it. -/
theorem spells_lexeme {c : Char} {l : Lexeme} (hc : Text.isBlank c = false)
    (hmore : l.more = cs.length) (hl : ∀ rest, ends rest → lexeme c (cs ++ rest) = .ok l) :
    Spells ends (c :: cs) [(l.kind, String.ofList l.text)] := by
  intro offset rest hrest
  refine ⟨[⟨l.kind, String.ofList l.text, offset⟩], offset + (l.more + 1), ?_, rfl⟩
  rw [List.cons_append, tokensFrom_cons hc, hl rest hrest]
  show .ok _ :: tokensFrom _ ((cs ++ rest).drop l.more) = _
  rw [hmore, List.drop_left]
  rfl

/-- **The tokens of a whole text** are those that it spells and the end of input. -/
theorem Spells.tokens (h : Spells ends cs xs) (hends : ends []) (offset : Nat) :
    ∃ (ts : List Token) (stop : Nat), tokensFrom offset cs = (ts ++ [Token.endOfInput stop]).map .ok
      ∧ ts.map Token.content = xs := by
  obtain ⟨ts, stop, hts, hxs⟩ := h offset [] hends
  rw [List.append_nil, tokensFrom_nil] at hts
  exact ⟨ts, stop, by rw [hts, List.map_append]; rfl, hxs⟩

end

/-- A text stops a word where a character stands that is not part of one. -/
theorem stops_cons {c : Char} (hc : continuesWord c = false) (rest : List Char) :
    Stops (c :: rest) := by
  intro d hd
  obtain rfl : c = d := Option.some.inj hd
  exact hc

theorem stops_nil : Stops [] := fun _ hd => nomatch hd

/-- **A test stops** at the end of a text, if it has not stopped before. -/
def Halts (p : Char → Bool) (src r : List Char) : Prop :=
  (∀ c ∈ src, p c = true) → ∀ c ∈ r.head?, p c = false

/-- What passes a test that stops is in the text. -/
theorem span_of_halts {p : Char → Bool} {src r : List Char} (h : Halts p src r) :
    (src ++ r).takeWhile p = src.takeWhile p ∧ (src ++ r).dropWhile p = src.dropWhile p ++ r := by
  induction src with
  | nil =>
    cases r with
    | nil => exact ⟨rfl, rfl⟩
    | cons c r =>
      have hc : p c = false := h nofun c rfl
      simp [hc]
  | cons c src ih =>
    cases hc : p c with
    | false => simp [hc]
    | true =>
      have hsrc : Halts p src r := fun hall => h (List.forall_mem_cons.mpr ⟨hc, hall⟩)
      simp [hc, ih hsrc]

/-- The characters at the front that satisfy a test, if none of the rest goes on with them. -/
theorem takeWhile_append_of_stops {p : Char → Bool} {cs rest : List Char}
    (hp : ∀ c, p c = true → continuesWord c = true) (hcs : ∀ c ∈ cs, p c = true)
    (hrest : Stops rest) :
    (cs ++ rest).takeWhile p = cs ∧ (cs ++ rest).dropWhile p = rest := by
  have hhalts : Halts p cs rest := fun _ c hc =>
    Bool.eq_false_iff.mpr fun hpc => absurd (hp c hpc) (by simp [hrest c hc])
  have hcut := span_of_halts hhalts
  rwa [List.takeWhile_eq_self_iff.mpr hcs, List.dropWhile_eq_nil_iff.mpr hcs,
    List.nil_append] at hcut

/-! ## Words -/

/-- A letter is one by its place alone. -/
theorem isAlpha_iff (c : Char) :
    c.isAlpha = true ↔ 65 ≤ c.toNat ∧ c.toNat ≤ 90 ∨ 97 ≤ c.toNat ∧ c.toNat ≤ 122 := by
  have hletter : c.isAlpha = (decide ('A'.val ≤ c.val ∧ c.val ≤ 'Z'.val)
      || decide ('a'.val ≤ c.val) && decide (c.val ≤ 'z'.val)) := rfl
  simp only [hletter, Bool.or_eq_true, Bool.and_eq_true, decide_eq_true_iff, UInt32.le_iff_toNat_le,
    Char.toNat_val, Char.reduceToNat]

theorem startsWord_bounds {c : Char} (hc : startsWord c = true) :
    65 ≤ c.toNat ∧ c.toNat ≤ 90 ∨ c.toNat = 95 ∨ 97 ≤ c.toNat ∧ c.toNat ≤ 122 := by
  unfold startsWord at hc
  rw [Bool.or_eq_true, decide_eq_true_iff, isAlpha_iff] at hc
  rcases hc with hc | rfl
  · omega
  · exact Or.inr (Or.inl rfl)

theorem isBlank_of_startsWord {c : Char} (hc : startsWord c = true) : Text.isBlank c = false := by
  have hbounds := startsWord_bounds hc
  exact Text.isBlank_of_ascii (by omega) (by omega)

/-- A letter or an underscore begins a word. -/
theorem lexeme_of_startsWord {c : Char} (hc : startsWord c = true) (rest : List Char) :
    lexeme c rest = .ok (word c rest) := by
  have hnumber : ¬ (c = '-' ∨ c.isDigit = true) := by
    have hbounds := startsWord_bounds hc
    rw [Char.isDigit_iff_toNat, ← Char.toNat_inj]
    simp only [Char.reduceToNat]
    omega
  unfold lexeme
  split
  -- no sign begins a word
  all_goals first
    | exact absurd hc (by decide)
    | rw [if_neg hnumber, if_pos hc]

/-- **A word is cut off whole.** -/
theorem spells_word {c : Char} {tail : List Char} (hc : startsWord c = true)
    (htail : tail.all continuesWord = true) :
    Spells Stops (c :: tail) [(wordKind (c :: tail), String.ofList (c :: tail))] := by
  refine spells_lexeme (l := ⟨wordKind (c :: tail), c :: tail, tail.length⟩)
    (isBlank_of_startsWord hc) rfl
    fun rest hrest => ?_
  rw [lexeme_of_startsWord hc]
  unfold word
  rw [(takeWhile_append_of_stops (fun _ h => h) (List.all_eq_true.mp htail) hrest).1]

/-! ## Numbers -/

theorem continuesWord_of_isDigit {c : Char} (hc : c.isDigit = true) : continuesWord c = true := by
  unfold continuesWord Char.isAlphanum
  simp [hc]

/-- An exponent begins with its letter. -/
theorem exponent_of_ne {e : Char} (he : ¬ (e = 'e' ∨ e = 'E')) (rest : List Char) :
    exponent (e :: rest) = [] := by
  unfold exponent
  simp only [he, if_false]

/-- After digits, a text that stops them has no exponent. -/
theorem exponent_of_stops {rest : List Char} (hrest : Stops rest) : exponent rest = [] := by
  cases rest with
  | nil => rfl
  | cons e rest =>
    have he : continuesWord e = false := hrest e rfl
    refine exponent_of_ne ?_ rest
    rintro (rfl | rfl)
    · exact absurd he (by decide)
    · exact absurd he (by decide)

/-- A number without a fraction. -/
theorem afterDigits_of_head_ne {whole rest : List Char} (hrest : ∀ c ∈ rest.head?, c ≠ '.') :
    afterDigits whole rest = .ok (finishNumber whole rest false) := by
  cases rest with
  | nil => rfl
  | cons c rest =>
    have hc : c ≠ '.' := hrest c rfl
    unfold afterDigits
    split
    · exact absurd (List.cons.inj ‹_›).1 hc
    · rfl

theorem afterDigits_of_stops {whole rest : List Char} (hrest : Stops rest) :
    afterDigits whole rest = .ok ⟨.int, whole, whole.length - 1⟩ := by
  have hpoint : ∀ c ∈ rest.head?, c ≠ '.' := by
    rintro c hc rfl
    exact absurd (hrest _ hc) (by decide)
  rw [afterDigits_of_head_ne hpoint, finishNumber, exponent_of_stops hrest]
  simp

/-- A minus or a digit begins a number. -/
theorem lexeme_of_digits {c : Char} {ds rest : List Char}
    (hc : c = '-' ∧ ds ≠ [] ∨ c.isDigit = true) (hds : ∀ d ∈ ds, d.isDigit = true)
    (hrest : Stops rest) :
    lexeme c (ds ++ rest) = .ok ⟨.int, c :: ds, ds.length⟩ := by
  have hnumber : number c (ds ++ rest) = .ok ⟨.int, c :: ds, ds.length⟩ := by
    obtain ⟨htake, hdrop⟩ := takeWhile_append_of_stops (fun _ => continuesWord_of_isDigit) hds hrest
    have hminus : ¬ (c = '-' ∧ ds = []) := by
      rintro ⟨rfl, rfl⟩
      rcases hc with hc | hc
      · exact hc.2 rfl
      · exact absurd hc (by decide)
    unfold number
    dsimp only
    rw [htake, hdrop, if_neg hminus, afterDigits_of_stops hrest]
    rfl
  have hfirst : c = '-' ∨ c.isDigit = true := hc.imp_left And.left
  unfold lexeme
  split
  -- every sign is another character than the first one of a number
  all_goals first
    | exact absurd hfirst (by decide)
    | rw [if_pos hfirst, hnumber]

/-- **The text of an integer is cut off whole.** -/
theorem spells_intText (n : Int) :
    Spells Stops (intText n) [(.int, String.ofList (intText n))] := by
  have hspells : ∀ {c : Char} {ds : List Char}, c = '-' ∧ ds ≠ [] ∨ c.isDigit = true →
      (∀ d ∈ ds, d.isDigit = true) → Spells Stops (c :: ds) [(.int, String.ofList (c :: ds))] := by
    intro c ds hc hds
    have hblank : Text.isBlank c = false := by
      rcases hc with ⟨rfl, -⟩ | hc
      · decide
      · rw [Char.isDigit_iff_toNat] at hc
        simp only [Char.reduceToNat] at hc
        exact Text.isBlank_of_ascii (by omega) (by omega)
    exact spells_lexeme (l := ⟨.int, c :: ds, ds.length⟩) hblank rfl
      fun rest hrest => lexeme_of_digits hc hds hrest
  have hne : digitsOf n.natAbs ≠ [] := Nat.toDigits_ne_nil
  unfold intText
  split
  · exact hspells (Or.inl ⟨rfl, hne⟩) fun d hd => isDigit_of_mem_digitsOf hd
  · obtain ⟨d, ds, hcons⟩ := List.exists_cons_of_ne_nil hne
    have hdigits : ∀ c ∈ d :: ds, c.isDigit = true := fun c hc =>
      isDigit_of_mem_digitsOf (hcons ▸ hc)
    rw [hcons]
    exact hspells (Or.inr (hdigits d List.mem_cons_self)) fun c hc =>
      hdigits c (List.mem_cons_of_mem d hc)

/-! ## String literals -/

/-- **A quoted text is cut off whole**, whatever follows it. -/
theorem spells_quote (t : String) :
    Spells (fun _ => True) (Text.quote t).toList [(.string, t)] := by
  have htext : (Text.quote t).toList = '"' :: (Text.escape t.toList ++ ['"']) := by
    unfold Text.quote
    rw [String.toList_ofList]
  rw [htext]
  have hl : ∀ rest, True → lexeme '"' (Text.escape t.toList ++ ['"'] ++ rest)
      = .ok ⟨.string, t.toList, (Text.escape t.toList ++ ['"']).length⟩ := by
    intro rest _
    show string '"' _ = _
    rw [List.append_assoc, List.singleton_append, string_closed (by decide) (encodes_escape _),
      List.length_append]
    rfl
  simpa using spells_lexeme (l := ⟨.string, t.toList, _⟩) (by decide) rfl hl

/-! ## Signs and keywords -/

/-- A sign of one character is cut off whole, whatever follows it. -/
theorem spells_single {c : Char} {kind : TokenKind} (hc : Text.isBlank c = false)
    (hl : ∀ rest, lexeme c rest = .ok (single kind c)) :
    Spells (fun _ => True) [c] [(kind, String.singleton c)] :=
  spells_lexeme (l := single kind c) hc rfl fun rest _ => hl rest

/-- A comma and a blank. -/
theorem spells_comma : Spells (fun _ => True) [',', ' '] [(.comma, ",")] :=
  (spells_single (by decide) fun _ => rfl).append (spells_blank (by decide)) fun _ _ => trivial

/-- **A keyword and a blank.** -/
theorem spells_keyword {c : Char} {tail : List Char} {kind : TokenKind} {text : String}
    (hc : startsWord c = true) (htail : tail.all continuesWord = true)
    (hkind : wordKind (c :: tail) = kind) (htext : text.toList = c :: tail) :
    Spells (fun _ => True) (text.toList ++ [' ']) [(kind, text)] := by
  have hword := spells_word hc htail
  rw [hkind, ← htext, String.ofList_toList] at hword
  exact hword.append (spells_blank (by decide)) fun rest _ => stops_cons (by decide) rest

/-- The tokens of an operator: its symbol, or two words. -/
def operatorContents : Operator → List (TokenKind × String)
  | .notIn => [(.not, "not"), (.operator .isIn, "in")]
  | op => [(.operator op, op.symbol)]

/-- **An operator and a blank.** -/
theorem spells_operator (op : Operator) :
    Spells (fun _ => True) (op.symbol.toList ++ [' ']) (operatorContents op) := by
  -- a symbol ends before the blank
  have hsymbol : ∀ {op : Operator} {c : Char} {cs : List Char}, op.symbol.toList = c :: cs →
      Text.isBlank c = false →
      (∀ rest, lexeme c (cs ++ ' ' :: rest) = .ok ⟨.operator op, c :: cs, cs.length⟩) →
      Spells (fun _ => True) (op.symbol.toList ++ [' ']) [(.operator op, op.symbol)] := by
    intro op c cs htext hc hl
    have hlexeme : Spells (fun rest => rest.head? = some ' ') (c :: cs)
        [(.operator op, String.ofList (c :: cs))] := by
      refine spells_lexeme (l := ⟨.operator op, c :: cs, cs.length⟩) hc rfl fun rest hrest => ?_
      cases rest with
      | nil => exact nomatch hrest
      | cons d rest => exact Option.some.inj hrest ▸ hl rest
    rw [← htext, String.ofList_toList] at hlexeme
    exact hlexeme.append (spells_blank (by decide)) fun _ _ => rfl
  cases op with
  | equal => exact hsymbol rfl (by decide) fun _ => rfl
  | notEqual => exact hsymbol rfl (by decide) fun _ => rfl
  | greater => exact hsymbol rfl (by decide) fun _ => rfl
  | greaterEqual => exact hsymbol rfl (by decide) fun _ => rfl
  | less => exact hsymbol rfl (by decide) fun _ => rfl
  | lessEqual => exact hsymbol rfl (by decide) fun _ => rfl
  | contains => exact hsymbol rfl (by decide) fun _ => rfl
  | notContains => exact hsymbol rfl (by decide) fun _ => rfl
  | isIn => exact spells_keyword (by decide) (by decide) rfl rfl
  | notIn =>
    have hnot : Spells (fun _ => True) ("not".toList ++ [' ']) [(.not, "not")] :=
      spells_keyword (by decide) (by decide) rfl rfl
    have hin : Spells (fun _ => True) ("in".toList ++ [' ']) [(.operator .isIn, "in")] :=
      spells_keyword (by decide) (by decide) rfl rfl
    exact hnot.append hin fun _ _ => trivial

end Lexer

end RecordQuery
