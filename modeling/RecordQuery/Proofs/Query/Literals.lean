import RecordQuery.Proofs.Query.Layout

/-!
# String literals

How string literals stand among the tokens. A reader that comes to a quote gives what is read of
the literal there (`next_quote`): a token with the text that the body encodes, if a body and a
closing quote stand behind it, and an error for what is wrong otherwise. The closing quote is the
first one that stands free, since a body has none (`Encodes.noFreeQuote`). A text that is put in
double quotes is one token with that text (`tokenize_quote`).
-/

namespace RecordQuery.Lexer

/-! ## Free quotes -/

section FreeQuote

variable {quote : Char} {body text : List Char}

/-- **No quote stands free in a body**: behind a backslash may stand any character, and
elsewhere any but the quote. -/
inductive NoFreeQuote (quote : Char) : (body : List Char) → Prop
  | done : NoFreeQuote quote []
  | plain {c : Char} {body : List Char} (hquote : c ≠ quote) (hbackslash : c ≠ '\\')
      (h : NoFreeQuote quote body) : NoFreeQuote quote (c :: body)
  | behind {e : Char} {body : List Char} (h : NoFreeQuote quote body) :
      NoFreeQuote quote ('\\' :: e :: body)

/-- A hexadecimal digit is no quote. -/
theorem IsHex.ne {c : Char} {v : Nat} (h : IsHex c v) (hquote : quote = '"' ∨ quote = '\'') :
    c ≠ quote ∧ c ≠ '\\' := by
  have htable : ∀ digits ∈ ["0123456789abcdef".toList, "0123456789ABCDEF".toList],
      '"' ∉ digits ∧ '\'' ∉ digits ∧ '\\' ∉ digits := by decide
  have hmem : ∃ digits ∈ ["0123456789abcdef".toList, "0123456789ABCDEF".toList], c ∈ digits := by
    rcases h with h | h
    · exact ⟨_, by simp, List.mem_of_getElem? h⟩
    · exact ⟨_, by simp, List.mem_of_getElem? h⟩
  obtain ⟨digits, hdigits, hc⟩ := hmem
  obtain ⟨hdouble, hsingle, hbackslash⟩ := htable digits hdigits
  refine ⟨?_, fun h => hbackslash (h ▸ hc)⟩
  rcases hquote with rfl | rfl
  · exact fun h => hdouble (h ▸ hc)
  · exact fun h => hsingle (h ▸ hc)

/-- **In a body that encodes a text no quote stands free.** -/
theorem Encodes.noFreeQuote (hquote : quote = '"' ∨ quote = '\'') (h : Encodes quote body text) :
    NoFreeQuote quote body := by
  induction h with
  | done => exact .done
  | plain hc hbackslash _ ih => exact .plain hc hbackslash ih
  | escape _ _ ih => exact .behind ih
  | unicode hch _ ih =>
    obtain ⟨w, x, y, z, ha, hb, hc, hd, -⟩ := hch
    have hplain : ∀ {c : Char} {v : Nat} {body : List Char}, IsHex c v → NoFreeQuote quote body →
        NoFreeQuote quote (c :: body) := fun hc h => .plain (hc.ne hquote).1 (hc.ne hquote).2 h
    exact .behind (hplain ha (hplain hb (hplain hc (hplain hd ih))))

end FreeQuote

/-! ## Literals among the tokens -/

section Literal

variable {quote : Char} {gap body text : List Char}

/-- **The next item at a quote** is what is read of the literal, with blanks in front or without. -/
theorem next_quote (hquote : quote = '"' ∨ quote = '\'') (hgap : ∀ c ∈ gap, Text.isBlank c = true)
    (offset : Nat) (cs : List Char) :
    Reader.next ⟨gap ++ quote :: cs, offset, false⟩ = match string quote cs with
      | .ok l => (some (.ok ⟨l.kind, String.ofList l.text, offset + gap.length⟩),
        ⟨cs.drop l.more, offset + gap.length + (l.more + 1), false⟩)
      | .error f => (some (.error ⟨offset + gap.length + f.shift, f.cause⟩),
        ⟨quote :: cs, offset + gap.length, true⟩) := by
  have hblank : Text.isBlank quote = false := by rcases hquote with rfl | rfl <;> decide
  have hlexeme : lexeme quote cs = string quote cs := by rcases hquote with rfl | rfl <;> rfl
  obtain ⟨htrim, htake⟩ := span_blanks hgap hblank cs
  unfold Reader.next
  simp only [htrim, htake, hlexeme, Bool.false_eq_true, if_false]
  cases string quote cs <;> rfl

/-- A body and a closing quote are read as the text. -/
theorem next_closed (hquote : quote = '"' ∨ quote = '\'') (hgap : ∀ c ∈ gap, Text.isBlank c = true)
    (h : Encodes quote body text) (offset : Nat) (rest : List Char) :
    Reader.next ⟨gap ++ quote :: (body ++ quote :: rest), offset, false⟩
      = (some (.ok ⟨.string, String.ofList text, offset + gap.length⟩),
        ⟨rest, offset + gap.length + (body.length + 2), false⟩) := by
  have hdrop : (body ++ quote :: rest).drop (body.length + 1) = rest := by
    rw [List.append_cons]
    exact List.drop_left' (by simp)
  rw [next_quote hquote hgap, string_closed (ne_backslash_of_quote hquote) h]
  simp only [hdrop]

/-- **A fault is reported** where it lies. -/
theorem next_of_fails (hquote : quote = '"' ∨ quote = '\'')
    (hgap : ∀ c ∈ gap, Text.isBlank c = true) {cs : List Char} {f : Fault} (h : Fails quote cs f)
    (offset : Nat) :
    (Reader.next ⟨gap ++ quote :: cs, offset, false⟩).1
      = some (.error ⟨offset + gap.length + f.shift, f.cause⟩) := by
  rw [next_quote hquote hgap, string_of_fails h]

end Literal

end RecordQuery.Lexer

namespace RecordQuery

open Lexer

/-- **A text between double quotes is one token** that has the text again. -/
theorem tokenize_quote (s : String) :
    tokenize (Text.quote s) = [.ok ⟨.string, s, 0⟩, .ok (.endOfInput (Text.quote s).length)] := by
  have htext : (Text.quote s).toList = '"' :: (Text.escape s.toList ++ '"' :: []) := by
    simp [Text.quote]
  have hblank : Text.isBlank '"' = false := Text.isBlank_of_ascii (by decide) (by decide)
  have hlexeme : lexeme '"' (Text.escape s.toList ++ '"' :: [])
      = .ok ⟨.string, s.toList, (Text.escape s.toList).length + 1⟩ :=
    string_closed (by decide) (encodes_escape s.toList) []
  rw [tokenize, ← String.length_toList, htext, tokensFrom_cons hblank, hlexeme]
  simp [tokensFrom_nil]

/-- **String literals decode exactly.** Behind a quote, with any blanks in front of it, a reader
gives a string token exactly if there are a body that encodes its text and the closing quote,
which is the first one that stands free, and it goes on behind that. Otherwise it gives an error:
at the backslash of the first bad escape, or at the opening quote if the text ends before. And a
text between double quotes is one token that has the text again. -/
theorem string_literal_decodes :
    (∀ (quote : Char) (gap cs : List Char) (offset : Nat), quote = '"' ∨ quote = '\'' →
      (∀ c ∈ gap, Text.isBlank c = true) →
      let start := offset + gap.length
      let reader : Reader := ⟨gap ++ quote :: cs, offset, false⟩
      (∀ s after, reader.next = (some (.ok ⟨.string, s, start⟩), after)
          ↔ ∃ body rest, cs = body ++ quote :: rest ∧ NoFreeQuote quote body
            ∧ Encodes quote body s.toList
            ∧ after = ⟨rest, start + (body.length + 2), false⟩)
        ∧ (∀ e, reader.next.1 = some (.error e)
          ↔ ∃ f, Fails quote cs f ∧ e = ⟨start + f.shift, f.cause⟩)
        ∧ ((∃ s after, reader.next = (some (.ok ⟨.string, s, start⟩), after))
          ∨ ∃ e, reader.next.1 = some (.error e)))
      ∧ ∀ s, tokenize (Text.quote s)
        = [.ok ⟨.string, s, 0⟩, .ok (.endOfInput (Text.quote s).length)] := by
  constructor
  · intro quote gap cs offset hquote hgap start reader
    have hclosed : ∀ {body rest : List Char} {s : String}, cs = body ++ quote :: rest →
        Encodes quote body s.toList →
        reader.next = (some (.ok ⟨.string, s, start⟩),
          ⟨rest, start + (body.length + 2), false⟩) := by
      rintro body rest s rfl h
      have hnext := next_closed hquote hgap h offset rest
      rwa [String.ofList_toList] at hnext
    have hfails : ∀ {f : Fault}, Fails quote cs f →
        reader.next.1 = some (.error ⟨start + f.shift, f.cause⟩) :=
      fun h => next_of_fails hquote hgap h offset
    -- one of the two is the case, and each of them settles what the reader gives
    have hone : (∃ body rest s, cs = body ++ quote :: rest ∧ Encodes quote body (String.toList s))
        ∨ ∃ f, Fails quote cs f :=
      (closed_or_fails quote cs).imp_left fun ⟨body, text, rest, hcs, h⟩ =>
        ⟨body, rest, String.ofList text, hcs, by rwa [String.toList_ofList]⟩
    refine ⟨fun s after => ⟨fun hnext => ?_, ?_⟩, fun e => ⟨fun hnext => ?_, ?_⟩, ?_⟩
    · rcases hone with ⟨body, rest, s', hcs, h⟩ | ⟨f, h⟩
      · rw [hclosed hcs h] at hnext
        obtain ⟨hitem, rfl⟩ := Prod.mk.inj hnext
        obtain rfl : s' = s := by simpa using hitem
        exact ⟨body, rest, hcs, h.noFreeQuote hquote, h, rfl⟩
      · rw [hnext] at hfails
        cases hfails h
    · rintro ⟨body, rest, hcs, -, h, rfl⟩
      exact hclosed hcs h
    · rcases hone with ⟨body, rest, s, hcs, h⟩ | ⟨f, h⟩
      · rw [hclosed hcs h] at hnext
        cases hnext
      · rw [hfails h] at hnext
        exact ⟨f, h, (Except.error.inj (Option.some.inj hnext)).symm⟩
    · rintro ⟨f, h, rfl⟩
      exact hfails h
    · exact hone.imp (fun ⟨_, _, s, hcs, h⟩ => ⟨s, _, hclosed hcs h⟩) fun ⟨f, h⟩ => ⟨_, hfails h⟩
  · exact tokenize_quote

/-- Behind a blank, `'a\u00E9\"'` is the literal of `aé"`. With the digits of a surrogate in it,
the error lies at the backslash before them. -/
theorem single_quoted_literal :
    Reader.next ⟨" 'a\\u00E9\\\"' ".toList, 0, false⟩
        = (some (.ok ⟨.string, "aé\"", 1⟩), ⟨[' '], 12, false⟩)
      ∧ (Reader.next ⟨" 'a\\uD800'".toList, 0, false⟩).1
        = some (.error ⟨3, .invalidUnicode "D800"⟩) := by
  have hgap : ∀ c ∈ [' '], Text.isBlank c = true :=
    List.forall_mem_singleton.mpr (Text.isBlank_of_isWhitespace rfl)
  constructor
  · have hchar : NamesChar '0' '0' 'E' '9' 'é' :=
      ⟨0, 0, 14, 9, .inl rfl, .inl rfl, .inr rfl, .inl rfl, rfl⟩
    have hencodes :
        Encodes '\'' ('a' :: '\\' :: 'u' :: '0' :: '0' :: 'E' :: '9' :: '\\' :: '"' :: [])
        ['a', 'é', '"'] :=
        .plain (by decide) (by decide) (.unicode hchar (.escape (by decide) .done))
    exact ((string_literal_decodes.1 '\'' [' '] _ 0 (Or.inr rfl) hgap).1 "aé\"" _).mpr
      ⟨_, [' '], rfl, hencodes.noFreeQuote (Or.inr rfl), hencodes, rfl⟩
  · have hnone : unicode? 'D' '8' '0' '0' = none := by decide
    have hbad : BadEscape ('\\' :: 'u' :: ['D', '8', '0', '0', '\'']) (.invalidUnicode "D800") := by
      refine .unicode fun hdigits ch hch => ?_
      obtain ⟨rfl, rfl, rfl, rfl, -⟩ : 'D' = _ ∧ '8' = _ ∧ '0' = _ ∧ '0' = _ ∧ ['\''] = _ := by
        simpa using hdigits
      rw [unicode?_eq_some_iff.mpr hch] at hnone
      cases hnone
    exact ((string_literal_decodes.1 '\'' [' '] _ 0 (Or.inr rfl) hgap).2.1 _).mpr
      ⟨_, .escape (.plain (by decide) (by decide) .done) hbad, rfl⟩

end RecordQuery
