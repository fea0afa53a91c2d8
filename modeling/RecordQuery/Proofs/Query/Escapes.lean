import RecordQuery.Query.Lexer
import RecordQuery.Text.Quoted

/-!
# What a string literal says

A body **encodes** a text (`Encodes`) when every character of the text stands in it as it is or as
an escape: a backslash and a letter or sign of the table `escapes`, or a backslash, a `u` and four
hexadecimal digits that name the character. What is behind an opening quote is read as the text
exactly if it is a body and a closing quote (`string_eq_ok_iff`), and it is refused for what is
wrong with it (`string_eq_error_iff`).

Both come from two facts. Whatever stands behind a quote begins with the longest body that encodes
a text, and behind that stands a closing quote, a bad escape or the end (`exists_encodes`). And
what is read of a body does not depend on what follows it, so the rest alone decides how the
literal ends (`literal_of_encodes`). Hence a bad escape is found only if nothing before it ends
the literal, and the end of the text only if no escape before it is bad.
-/

namespace RecordQuery.Lexer

/-! ## Escapes -/

/-- The letters and signs that stand for a character after a backslash. -/
def escapes : List (Char × Char) :=
  [('"', '"'), ('\'', '\''), ('\\', '\\'), ('/', '/'), ('n', '\n'), ('t', '\t'), ('r', '\r'),
    ('b', '\x08'), ('f', '\x0c')]

/-- **A hexadecimal digit** of a value, in either letter case. -/
def IsHex (c : Char) (v : Nat) : Prop :=
  "0123456789abcdef".toList[v]? = some c ∨ "0123456789ABCDEF".toList[v]? = some c

/-- **Four hexadecimal digits name a character**: they are its code point. Digits of a surrogate
name none, since no character has that code point. -/
def NamesChar (a b c d ch : Char) : Prop :=
  ∃ w x y z, IsHex a w ∧ IsHex b x ∧ IsHex c y ∧ IsHex d z
    ∧ ch.toNat = ((w * 16 + x) * 16 + y) * 16 + z

theorem escaped?_eq_some_iff {e ch : Char} : escaped? e = some ch ↔ (e, ch) ∈ escapes := by
  constructor
  · intro h
    unfold escaped? at h
    split at h
    case h_10 => cases h
    all_goals
      obtain rfl := Option.some.inj h
      decide
  · intro h
    have htable : ∀ x ∈ escapes, escaped? x.1 = some x.2 := by decide
    exact htable _ h

/-- The digits and the two runs of letters are the hexadecimal digits. -/
theorem hexValue?_eq_some_iff {c : Char} {v : Nat} : Text.hexValue? c = some v ↔ IsHex c v := by
  constructor
  · intro h
    have hdigits : ∀ n < 58, 48 ≤ n → IsHex (Char.ofNat n) (n - 48) := by
      unfold IsHex
      decide
    have hsmall : ∀ n < 103, 97 ≤ n → IsHex (Char.ofNat n) (n - 97 + 10) := by
      unfold IsHex
      decide
    have hcapital : ∀ n < 71, 65 ≤ n → IsHex (Char.ofNat n) (n - 65 + 10) := by
      unfold IsHex
      decide
    unfold Text.hexValue? at h
    simp only [Char.isDigit_iff_toNat, Char.le_def, UInt32.le_iff_toNat_le, Char.toNat_val,
      Char.reduceToNat] at h
    rw [← Char.ofNat_toNat c]
    split at h
    · obtain rfl := Option.some.inj h
      exact hdigits _ (by omega) (by omega)
    · split at h
      · obtain rfl := Option.some.inj h
        exact hsmall _ (by omega) (by omega)
      · split at h
        · obtain rfl := Option.some.inj h
          exact hcapital _ (by omega) (by omega)
        · cases h
  · intro h
    have htable : ∀ v < 16, ∀ digits ∈ ["0123456789abcdef".toList, "0123456789ABCDEF".toList],
        (digits[v]?).all fun c => Text.hexValue? c == some v := by decide
    have hread : ∀ digits ∈ ["0123456789abcdef".toList, "0123456789ABCDEF".toList],
        digits[v]? = some c → Text.hexValue? c = some v := by
      intro digits hdigits hc
      have hlength : ∀ ds ∈ ["0123456789abcdef".toList, "0123456789ABCDEF".toList],
          ds.length = 16 := by decide
      obtain ⟨hv, -⟩ := List.getElem?_eq_some_iff.mp hc
      have hcheck := htable v (hlength digits hdigits ▸ hv) digits hdigits
      rwa [hc, Option.all_some, beq_iff_eq] at hcheck
    rcases h with h | h
    · exact hread _ (by simp) h
    · exact hread _ (by simp) h

theorem IsHex.lt {c : Char} {v : Nat} (h : IsHex c v) : v < 16 := by
  rcases h with h | h <;> exact (List.getElem?_eq_some_iff.mp h).1

/-- **Four digits are read as the character that they name.** -/
theorem unicode?_eq_some_iff {a b c d ch : Char} :
    unicode? a b c d = some ch ↔ NamesChar a b c d ch := by
  have hnumber : ∀ n, Text.hexNumber? a b c d = some n
      ↔ ∃ w x y z, IsHex a w ∧ IsHex b x ∧ IsHex c y ∧ IsHex d z
        ∧ n = ((w * 16 + x) * 16 + y) * 16 + z := by
    intro n
    simp only [← hexValue?_eq_some_iff]
    unfold Text.hexNumber?
    cases Text.hexValue? a <;> cases Text.hexValue? b <;> cases Text.hexValue? c
      <;> cases Text.hexValue? d
      <;> simp [eq_comm]
  unfold unicode? NamesChar
  constructor
  · intro h
    split at h
    · rename_i n hn
      obtain ⟨w, x, y, z, ha, hb, hc, hd, rfl⟩ := (hnumber n).mp hn
      have := ha.lt
      have := hb.lt
      have := hc.lt
      have := hd.lt
      split at h
      · cases h
      · rename_i hsurrogate
        obtain rfl := Option.some.inj h
        refine ⟨w, x, y, z, ha, hb, hc, hd, ?_⟩
        simp only [Text.isSurrogate, Bool.and_eq_true, decide_eq_true_iff] at hsurrogate
        have hvalid : Nat.isValidChar (((w * 16 + x) * 16 + y) * 16 + z) := by
          unfold Nat.isValidChar
          omega
        unfold Char.ofNat
        rw [dif_pos hvalid]
        rfl
    · cases h
  · rintro ⟨w, x, y, z, ha, hb, hc, hd, hch⟩
    have hvalid : ch.toNat < 0xD800 ∨ 0xDFFF < ch.toNat ∧ ch.toNat < 0x110000 := ch.valid
    rw [(hnumber _).mpr ⟨w, x, y, z, ha, hb, hc, hd, rfl⟩, ← hch]
    have hsurrogate : ¬ Text.isSurrogate ch.toNat = true := by
      simp only [Text.isSurrogate, Bool.and_eq_true, decide_eq_true_iff]
      omega
    simp only [hsurrogate, if_false, Char.ofNat_toNat, Bool.false_eq_true]

/-! ## Bodies -/

/-- **A body encodes a text**: every character of the text stands in it as it is, unless it is the
quote or a backslash, or as an escape. -/
inductive Encodes (quote : Char) : (body text : List Char) → Prop
  | done : Encodes quote [] []
  | plain {c : Char} {body text : List Char} (hquote : c ≠ quote) (hbackslash : c ≠ '\\')
      (h : Encodes quote body text) : Encodes quote (c :: body) (c :: text)
  | escape {e ch : Char} {body text : List Char} (he : (e, ch) ∈ escapes)
      (h : Encodes quote body text) :
      Encodes quote ('\\' :: e :: body) (ch :: text)
  | unicode {a b c d ch : Char} {body text : List Char} (hch : NamesChar a b c d ch)
      (h : Encodes quote body text) :
        Encodes quote ('\\' :: 'u' :: a :: b :: c :: d :: body) (ch :: text)

/-- **A bad escape at the front of a text**, and what is reported of it: a letter or sign that is
not in the table, or a `u` that no four digits of a character follow. -/
inductive BadEscape : List Char → LexError.Cause → Prop
  | letter {e : Char} {rest : List Char} (hu : e ≠ 'u') (he : ∀ ch, (e, ch) ∉ escapes) :
      BadEscape ('\\' :: e :: rest) (.invalidEscape e)
  | unicode {rest : List Char} (h : ∀ {a b c d : Char} {after : List Char},
      rest = a :: b :: c :: d :: after → ∀ ch, ¬ NamesChar a b c d ch) :
      BadEscape ('\\' :: 'u' :: rest) (.invalidUnicode (String.ofList (hexPrefix rest)))

/-- **What is wrong with a literal** whose characters behind the opening quote are given. A bad
escape is found where it stands, if a body is all there is before it. The end of the text is a
fault of the whole literal. -/
inductive Fails (quote : Char) : List Char → Fault → Prop
  | escape {body text bad : List Char} {cause : LexError.Cause} (h : Encodes quote body text)
      (hbad : BadEscape bad cause) : Fails quote (body ++ bad) ⟨body.length + 1, cause⟩
  | ended {body text rest : List Char} (h : Encodes quote body text)
      (hrest : rest = [] ∨ rest = ['\\']) :
      Fails quote (body ++ rest) ⟨0, .unterminated⟩

section Body

variable {quote : Char} {body text : List Char}

/-- A text is not longer than a body that encodes it. -/
theorem Encodes.length_le (h : Encodes quote body text) : text.length ≤ body.length := by
  induction h with
  | done => exact Nat.le_refl 0
  | plain _ _ _ ih => exact Nat.succ_le_succ ih
  | escape _ _ ih => exact Nat.le_succ_of_le (Nat.succ_le_succ ih)
  | unicode _ _ ih =>
    simp only [List.length_cons]
    omega

/-- What is wrong with a literal lies in it. -/
theorem Fails.shift_le {cs : List Char} {f : Fault} (h : Fails quote cs f) :
    f.shift ≤ cs.length := by
  cases h with
  | escape _ hbad =>
    rw [List.length_append]
    cases hbad <;> exact Nat.add_le_add_left (Nat.succ_le_succ (Nat.zero_le _)) _
  | ended _ _ => exact Nat.zero_le _

/-- A text without the quote and without a backslash encodes itself. -/
theorem encodes_self {cs : List Char} (h : ∀ c ∈ cs, c ≠ quote ∧ c ≠ '\\') :
    Encodes quote cs cs := by
  induction cs with
  | nil => exact .done
  | cons c cs ih =>
    obtain ⟨⟨hquote, hbackslash⟩, hcs⟩ := List.forall_mem_cons.mp h
    exact .plain hquote hbackslash (ih hcs)

/-- **A text between double quotes is encoded** by what stands between them. -/
theorem encodes_escape (cs : List Char) : Encodes '"' (Text.escape cs) cs := by
  induction cs with
  | nil => exact .done
  | cons c cs ih =>
    rw [Text.escape_cons]
    unfold Text.escapeChar
    split
    case h_6 hquote hbackslash _ _ _ => exact .plain hquote hbackslash ih
    all_goals exact .escape (by decide) ih

end Body

/-! ## Reading a body -/

/-- What is read with a body in front: its text and its width are added. -/
def prepend (text : List Char) (width : Nat) (r : Except Fault (List Char × Nat)) :
    Except Fault (List Char × Nat) :=
  r.map fun x => (text ++ x.1, width + x.2)

theorem prepend_prepend (text text' : List Char) (width width' : Nat)
    (r : Except Fault (List Char × Nat)) :
    prepend text width (prepend text' width' r) = prepend (text ++ text') (width + width') r := by
  cases r with
  | error f => rfl
  | ok x => simp only [prepend, Except.map, List.append_assoc, Nat.add_assoc]

theorem consChar_eq_prepend (c : Char) (width : Nat) (r : Except Fault (List Char × Nat)) :
    consChar c width r = prepend [c] width r := by
  cases r <;> rfl

section Reading

variable {quote : Char} {body text : List Char}

/-- A character that begins no escape. -/
theorem literal_plain {quote c : Char} {shift : Nat} {cs : List Char} (hc : c ≠ '\\') :
    literal quote shift (c :: cs)
      = if c = quote then .ok ([], 1) else consChar c 1 (literal quote (shift + 1) cs) := by
  rw [literal.eq_def]
  split
  all_goals first
    | exact absurd (List.cons.inj ‹_›).1 hc
    | skip
  · contradiction
  · rename_i h
    obtain ⟨rfl, rfl⟩ := List.cons.inj h
    rfl

/-- An escape of one letter or sign. -/
theorem literal_letter {quote e : Char} {shift : Nat} {cs : List Char} (hu : e ≠ 'u') :
    literal quote shift ('\\' :: e :: cs) = match escaped? e with
      | some ch => consChar ch 2 (literal quote (shift + 2) cs)
      | none => .error ⟨shift, .invalidEscape e⟩ := by
  rw [literal.eq_def]
  split
  all_goals first
    | exact absurd (List.cons.inj (List.cons.inj ‹_›).2).1 hu
    | skip
  · contradiction
  · rename_i h
    exact nomatch (List.cons.inj h).2
  · rename_i h
    obtain ⟨rfl, rfl⟩ := List.cons.inj (List.cons.inj h).2
    rfl
  · rename_i hne h
    obtain ⟨rfl, rfl⟩ := List.cons.inj h
    exact (hne e cs rfl rfl).elim

theorem literal_unicode (shift : Nat) (a b c d : Char) (rest : List Char) :
    literal quote shift ('\\' :: 'u' :: a :: b :: c :: d :: rest)
      = match unicode? a b c d with
        | some ch => consChar ch 6 (literal quote (shift + 6) rest)
        | none => .error ⟨shift, .invalidUnicode (String.ofList (hexPrefix [a, b, c, d]))⟩ := rfl

/-- A letter or sign of the table is no `u`. -/
theorem ne_of_mem_escapes {e ch : Char} (he : (e, ch) ∈ escapes) : e ≠ 'u' := by
  have htable : ∀ x ∈ escapes, x.1 ≠ 'u' := by decide
  exact htable _ he

/-- **What is read of a body does not depend on what follows it.** The induction is on the
encoding. -/
theorem literal_of_encodes (h : Encodes quote body text) (shift : Nat) (rest : List Char) :
    literal quote shift (body ++ rest)
      = prepend text body.length (literal quote (shift + body.length) rest) := by
  -- a character of the text in front, with what it takes of the body
  have hfront : ∀ (front : List Char) {ch : Char} {body text : List Char} (shift : Nat),
      prepend [ch] front.length
          (prepend text body.length (literal quote (shift + front.length + body.length) rest))
        = prepend (ch :: text) (front ++ body).length
          (literal quote (shift + (front ++ body).length) rest) := by
    intro front ch body text shift
    rw [prepend_prepend, List.length_append, Nat.add_assoc]
    rfl
  induction h generalizing shift with
  | done =>
    show literal quote shift rest = prepend [] 0 (literal quote shift rest)
    cases literal quote shift rest <;> simp [prepend, Except.map]
  | @plain c body text hquote hbackslash _ ih =>
    rw [List.cons_append, literal_plain hbackslash, if_neg hquote, ih, consChar_eq_prepend]
    exact hfront [c] shift
  | @escape e ch body text he _ ih =>
    rw [List.cons_append, List.cons_append,
      literal_letter (ne_of_mem_escapes he), escaped?_eq_some_iff.mpr he]
    dsimp only
    rw [ih, consChar_eq_prepend]
    exact hfront ['\\', e] shift
  | @unicode a b c d ch body text hch _ ih =>
    show literal quote shift ('\\' :: 'u' :: a :: b :: c :: d :: (body ++ rest)) = _
    rw [literal_unicode, unicode?_eq_some_iff.mpr hch]
    dsimp only
    rw [ih, consChar_eq_prepend]
    exact hfront ['\\', 'u', a, b, c, d] shift

/-- A bad escape is refused where it stands. -/
theorem literal_of_badEscape {rest : List Char} {cause : LexError.Cause}
    (h : BadEscape rest cause) (shift : Nat) :
    literal quote shift rest = .error ⟨shift, cause⟩ := by
  cases h with
  | @letter e rest hu he =>
    have hnone : escaped? e = none :=
      Option.eq_none_iff_forall_ne_some.mpr fun ch h => he ch (escaped?_eq_some_iff.mp h)
    rw [literal_letter hu, hnone]
  | @unicode rest h =>
    match rest with
    | a :: b :: c :: d :: after =>
      have hnone : unicode? a b c d = none :=
        Option.eq_none_iff_forall_ne_some.mpr fun ch hch => h rfl ch (unicode?_eq_some_iff.mp hch)
      rw [literal_unicode, hnone]
      rfl
    | [] | [_] | [_, _] | [_, _, _] => rfl

/-- A character that begins no escape is no backslash. -/
theorem ne_backslash {c : Char} {rest : List Char} (hnil : c = '\\' → rest = [] → False)
    (hmore : ∀ e more, c = '\\' → rest = e :: more → False) : c ≠ '\\' := by
  rintro rfl
  cases rest with
  | nil => exact hnil rfl rfl
  | cons e more => exact hmore e more rfl rfl

/-- **What can stand behind a body**: the closing quote, a bad escape, or the end of the text with
a backslash before it or none. -/
inductive Behind (quote : Char) : List Char → Prop
  | closed {rest : List Char} : Behind quote (quote :: rest)
  | bad {rest : List Char} {cause : LexError.Cause} (h : BadEscape rest cause) : Behind quote rest
  | ended {rest : List Char} (h : rest = [] ∨ rest = ['\\']) : Behind quote rest

/-- **Behind a quote stands a body** that encodes a text, and then something that ends it. The
induction follows the reading. -/
theorem exists_encodes (quote : Char) (cs : List Char) :
    ∃ body text rest, cs = body ++ rest ∧ Encodes quote body text ∧ Behind quote rest := by
  fun_induction literal quote 0 cs with
  | case1 => exact ⟨[], [], [], rfl, .done, .ended (Or.inl rfl)⟩
  | case2 => exact ⟨[], [], _, rfl, .done, .ended (Or.inr rfl)⟩
  | case3 shift a b c d rest ch hch ih =>
    obtain ⟨body, text, rest, rfl, h, hends⟩ := ih
    exact ⟨_, _, rest, rfl, .unicode (unicode?_eq_some_iff.mp hch) h, hends⟩
  | case4 shift a b c d rest hnone =>
    refine ⟨[], [], _, rfl, .done, .bad (.unicode fun hcons ch hch => ?_)⟩
    obtain ⟨rfl, rfl, rfl, rfl, rfl⟩ : a = _ ∧ b = _ ∧ c = _ ∧ d = _ ∧ rest = _ := by
      simpa using hcons
    rw [unicode?_eq_some_iff.mpr hch] at hnone
    cases hnone
  | case5 shift few hfew =>
    exact ⟨[], [], _, rfl, .done, .bad (.unicode fun hcons => (hfew _ _ _ _ _ hcons).elim)⟩
  | case6 shift e rest _ hu ch hch ih =>
    obtain ⟨body, text, rest, rfl, h, hends⟩ := ih
    exact ⟨_, _, rest, rfl, .escape (escaped?_eq_some_iff.mp hch) h, hends⟩
  | case7 shift e rest _ hu hnone =>
    refine ⟨[], [], _, rfl, .done, .bad (.letter hu fun ch hch => ?_)⟩
    rw [escaped?_eq_some_iff.mpr hch] at hnone
    cases hnone
  | case8 shift rest => exact ⟨[], [], _, rfl, .done, .closed⟩
  | case9 shift c rest hnil _ _ hmore hquote ih =>
    obtain ⟨body, text, rest, rfl, h, hends⟩ := ih
    exact ⟨_, _, rest, rfl, .plain hquote (ne_backslash hnil hmore) h, hends⟩

/-- **Either a body and the closing quote are read or something is wrong.** -/
theorem closed_or_fails (quote : Char) (cs : List Char) :
    (∃ body text rest, cs = body ++ quote :: rest ∧ Encodes quote body text)
      ∨ ∃ f, Fails quote cs f := by
  obtain ⟨body, text, rest, rfl, h, hbehind⟩ := exists_encodes quote cs
  cases hbehind with
  | closed => exact Or.inl ⟨body, text, _, rfl, h⟩
  | bad hbad => exact Or.inr ⟨_, .escape h hbad⟩
  | ended hrest => exact Or.inr ⟨_, .ended h hrest⟩

end Reading

/-! ## Reading a literal -/

section Literal

variable {quote : Char} {body text cs : List Char}

theorem ne_backslash_of_quote (hquote : quote = '"' ∨ quote = '\'') : quote ≠ '\\' := by
  rcases hquote with rfl | rfl <;> decide

/-- **A body and a closing quote are the whole literal.** -/
theorem string_closed (hquote : quote ≠ '\\') (h : Encodes quote body text) (rest : List Char) :
    string quote (body ++ quote :: rest) = .ok ⟨.string, text, body.length + 1⟩ := by
  rw [string, literal_of_encodes h, literal_plain hquote, if_pos rfl]
  simp only [prepend, Except.map, List.append_nil]

/-- What is wrong with a literal is what it is refused for. -/
theorem string_of_fails {f : Fault} (h : Fails quote cs f) : string quote cs = .error f := by
  cases h with
  | escape h hbad =>
    rw [string, literal_of_encodes h, literal_of_badEscape hbad, Nat.add_comm 1]
    rfl
  | ended h hrest =>
    rw [string, literal_of_encodes h]
    rcases hrest with rfl | rfl <;> rfl

/-- **A literal is a body and a closing quote.** -/
theorem string_eq_ok_iff (hquote : quote ≠ '\\') {l : Lexeme} : string quote cs = .ok l
    ↔ ∃ body text rest, cs = body ++ quote :: rest ∧ Encodes quote body text
      ∧ l = ⟨.string, text, body.length + 1⟩ := by
  constructor
  · intro hl
    rcases closed_or_fails quote cs with ⟨body, text, rest, rfl, h⟩ | ⟨f, h⟩
    · rw [string_closed hquote h] at hl
      exact ⟨body, text, rest, rfl, h, (Except.ok.inj hl).symm⟩
    · rw [string_of_fails h] at hl
      cases hl
  · rintro ⟨body, text, rest, rfl, h, rfl⟩
    exact string_closed hquote h rest

/-- **Anything else is refused.** -/
theorem string_eq_error_iff (hquote : quote ≠ '\\') {f : Fault} :
    string quote cs = .error f ↔ Fails quote cs f := by
  refine ⟨fun hf => ?_, string_of_fails⟩
  rcases closed_or_fails quote cs with ⟨body, text, rest, rfl, h⟩ | ⟨f', h⟩
  · rw [string_closed hquote h] at hf
    cases hf
  · rw [string_of_fails h] at hf
    exact Except.error.inj hf ▸ h

end Literal

end RecordQuery.Lexer
