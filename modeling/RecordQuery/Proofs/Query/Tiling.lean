import Mathlib.Data.List.TakeWhile
import RecordQuery.Proofs.Query.Lexemes

/-!
# Tokens tile a query

Where the tokens of a query stand in it. `Denotes source kind text` says what the characters of a
token look like: it gives the class of every kind of token, and the text that the token has. A
`Piece` is a token with its source and the blanks in front of it, and **a query is its pieces one
after the other, and blanks or an error after the last one** (`tokenize_tiles`). So every token
stands where its offset says, nothing but blanks lies between two tokens, and an error lies behind
the last token and inside the text.

Everything rests on what is cut off at once (`cuts_lexeme`): a lexeme takes characters that denote
it, and an error lies inside the characters at hand.

A reader gives the same items out one at a time, and nothing after the last one (`Reader.item?_eq`).
-/

namespace RecordQuery

namespace Lexer

/-! ## What tokens look like -/

/-- **A word**: a letter or an underscore, and letters, digits, underscores and points. -/
def IsWord (cs : List Char) : Prop :=
  ∃ c tail, cs = c :: tail ∧ startsWord c = true ∧ ∀ d ∈ tail, continuesWord d = true

/-- One digit or more. -/
def IsDigits (cs : List Char) : Prop := cs ≠ [] ∧ ∀ c ∈ cs, c.isDigit = true

/-- An optional minus and digits. -/
def IsWhole (cs : List Char) : Prop := ∃ ds, IsDigits ds ∧ (cs = ds ∨ cs = '-' :: ds)

/-- No whole number is without characters. -/
theorem IsWhole.ne_nil {cs : List Char} (h : IsWhole cs) : cs ≠ [] := by
  obtain ⟨ds, ⟨hne, -⟩, rfl | rfl⟩ := h
  · exact hne
  · exact List.cons_ne_nil _ _

/-- A point and digits. -/
def IsFraction (cs : List Char) : Prop := ∃ ds, IsDigits ds ∧ cs = '.' :: ds

/-- The letter of an exponent, an optional sign and digits. -/
def IsExponent (cs : List Char) : Prop :=
  ∃ e sign ds, (e = 'e' ∨ e = 'E') ∧ (sign = [] ∨ sign = ['+'] ∨ sign = ['-']) ∧ IsDigits ds
    ∧ cs = e :: (sign ++ ds)

/-- The words that are no names, in small letters, and what they are. -/
def keywords : List (String × TokenKind) :=
  [("and", .and), ("or", .or), ("not", .not), ("in", .operator .isIn), ("true", .bool),
   ("false", .bool), ("null", .null)]

/-- The signs that are no operators. -/
def brackets : List (Char × TokenKind) :=
  [('(', .leftParen), (')', .rightParen), ('[', .leftBracket), (']', .rightBracket), (',', .comma)]

/-- **What the characters of a token look like** for each kind of token, and the text of the
token. A keyword may be in any letter case and has no point. The text of every token but a string
literal is its source. -/
inductive Denotes : (source : List Char) → TokenKind → (text : String) → Prop
  | name {source : List Char} (hword : IsWord source)
      (hkey : ∀ k ∈ keywords, source.map Char.toLower ≠ k.1.toList) :
      Denotes source .name (String.ofList source)
  | keyword {source : List Char} {word : String} {kind : TokenKind} (hkey : (word, kind) ∈ keywords)
      (hcase : source.map Char.toLower = word.toList) : Denotes source kind (String.ofList source)
  | int {source : List Char} (hwhole : IsWhole source) : Denotes source .int (String.ofList source)
  | float {whole fraction exponent : List Char} (hwhole : IsWhole whole)
      (hfraction : fraction = [] ∨ IsFraction fraction)
      (hexponent : exponent = [] ∨ IsExponent exponent)
      (hsome : fraction ++ exponent ≠ []) :
      Denotes (whole ++ fraction ++ exponent) .float (String.ofList (whole ++ fraction ++ exponent))
  | string {quote : Char} {inner : List Char} {text : String}
      (hquote : quote = '"' ∨ quote = '\'') :
      Denotes (quote :: (inner ++ [quote])) .string text
  | operator {op : Operator} (hop : op.takesList = false) :
      Denotes op.symbol.toList (.operator op) op.symbol
  | bracket {c : Char} {kind : TokenKind} (hc : (c, kind) ∈ brackets) :
      Denotes [c] kind (String.singleton c)

/-- **A token but a string literal has the text of its source.** -/
theorem Denotes.text_eq {source : List Char} {kind : TokenKind} {text : String}
    (h : Denotes source kind text) (hkind : kind ≠ .string) : text = String.ofList source := by
  cases h with
  | string => exact absurd rfl hkind
  | operator => exact String.ofList_toList.symm
  | _ => rfl

/-- No characters denote the end of input. -/
theorem Denotes.kind_ne {source : List Char} {kind : TokenKind} {text : String}
    (h : Denotes source kind text) : kind ≠ .endOfInput := by
  rintro rfl
  cases h with
  | keyword hkey => simp [keywords] at hkey
  | bracket hc => simp [brackets] at hc

/-- No token is without characters. -/
theorem Denotes.ne_nil {source : List Char} {kind : TokenKind} {text : String}
    (h : Denotes source kind text) : source ≠ [] := by
  cases h with
  | name hword =>
    obtain ⟨c, tail, rfl, -⟩ := hword
    exact List.cons_ne_nil _ _
  | keyword hkey hcase =>
    rintro rfl
    have hnonempty : ∀ k ∈ keywords, k.1.toList ≠ [] := by decide
    exact hnonempty _ hkey hcase.symm
  | int h => exact h.ne_nil
  | float h => simp [h.ne_nil]
  | string => exact List.cons_ne_nil _ _
  | @operator op _ => cases op <;> decide
  | bracket => exact List.cons_ne_nil _ _

/-! ## What is cut off -/

/-- **A lexeme takes characters** of a text: they are not more than there are, and they spell it. -/
def Takes (c : Char) (rest : List Char) (l : Lexeme) : Prop :=
  l.more ≤ rest.length ∧ Denotes (c :: rest.take l.more) l.kind (String.ofList l.text)

/-- A lexeme whose text is at the front takes the characters of its text. -/
theorem takes_of_prefix {l : Lexeme} {c : Char} {rest : List Char} (hfront : l.text <+: c :: rest)
    (hmore : l.text.length = l.more + 1) (h : Denotes l.text l.kind (String.ofList l.text)) :
    Takes c rest l := by
  have htext : l.text = c :: rest.take l.more := by
    rw [List.prefix_iff_eq_take.mp hfront, hmore, List.take_succ_cons]
  refine ⟨?_, htext ▸ h⟩
  have hlength := hfront.length_le
  rw [List.length_cons, hmore] at hlength
  omega

/-- **Every word is a name or a keyword.** -/
theorem denotes_word {cs : List Char} (h : IsWord cs) :
    Denotes cs (wordKind cs) (String.ofList cs) := by
  have hcase : ∀ {word : String}, String.ofList (cs.map Char.toLower) = word →
      cs.map Char.toLower = word.toList := by
    rintro word rfl
    exact String.toList_ofList.symm
  unfold wordKind
  split
  -- the keywords in the order of the table, and then the names
  case h_8 hand hor hnot hin htrue hfalse hnull =>
    refine .name h ?_
    have hne : ∀ {word : String}, String.ofList (cs.map Char.toLower) ≠ word →
        cs.map Char.toLower ≠ word.toList := by
      intro word hword heq
      exact hword (by rw [heq, String.ofList_toList])
    simp only [keywords, List.forall_mem_cons]
    exact ⟨hne hand, hne hor, hne hnot, hne hin, hne htrue, hne hfalse, hne hnull, nofun⟩
  all_goals
    refine .keyword ?_ (hcase ‹_›)
    decide

theorem takes_word {c : Char} (hc : startsWord c = true) (rest : List Char) :
    Takes c rest (word c rest) := by
  refine takes_of_prefix (List.cons_prefix_cons.mpr ⟨rfl, List.takeWhile_prefix _⟩) rfl ?_
  exact denotes_word ⟨c, _, rfl, hc, fun d hd => List.all_eq_true.mp List.all_takeWhile d hd⟩

/-! ### Numbers -/

/-- The digits at the front of a text are digits. -/
theorem isDigits_takeWhile {cs : List Char} (h : cs.takeWhile Char.isDigit ≠ []) :
    IsDigits (cs.takeWhile Char.isDigit) :=
  ⟨h, List.all_eq_true.mp List.all_takeWhile⟩

/-- **The exponent at the front of a text**, if there is one. -/
theorem exponent_spec (rest : List Char) :
    exponent rest <+: rest ∧ (exponent rest = [] ∨ IsExponent (exponent rest)) := by
  have hnone : ([] : List Char) <+: rest ∧ (([] : List Char) = [] ∨ IsExponent []) :=
    ⟨List.nil_prefix, Or.inl rfl⟩
  unfold exponent
  split
  · rename_i e rest
    split
    · rename_i he
      split
      · rename_i s after
        split
        · -- a sign and digits
          rename_i hs
          dsimp only
          split
          · exact hnone
          · rename_i hdigits
            rw [List.isEmpty_iff] at hdigits
            refine ⟨?_, Or.inr ⟨e, [s], _, he, by simpa using hs, isDigits_takeWhile hdigits, rfl⟩⟩
            simpa using List.takeWhile_prefix _
        · -- digits without a sign
          dsimp only
          split
          · exact hnone
          · rename_i hdigits
            rw [List.isEmpty_iff] at hdigits
            refine ⟨?_, Or.inr ⟨e, [], _, he, Or.inl rfl, isDigits_takeWhile hdigits, rfl⟩⟩
            simpa using List.takeWhile_prefix _
      · exact hnone
    · exact hnone
  · exact hnone

/-- **A number takes its sign and digits, a fraction and an exponent.** -/
theorem takes_finishNumber {c : Char} {whole fraction rest : List Char} (hwhole : IsWhole whole)
    (hfraction : fraction = [] ∨ IsFraction fraction) {text : List Char}
    (htext : c :: text = whole ++ fraction ++ rest) :
    Takes c text (finishNumber (whole ++ fraction) rest (!fraction.isEmpty)) := by
  obtain ⟨hfront, hexponent⟩ := exponent_spec rest
  refine takes_of_prefix ?_ ?_ ?_
  · show whole ++ fraction ++ exponent rest <+: c :: text
    rw [htext]
    exact (List.prefix_append_right_inj _).mpr hfront
  · show (whole ++ fraction ++ exponent rest).length
      = (whole ++ fraction ++ exponent rest).length - 1 + 1
    have : 0 < whole.length := List.length_pos_iff.mpr hwhole.ne_nil
    simp only [List.length_append]
    omega
  · show Denotes _
      (if (!fraction.isEmpty || !(exponent rest).isEmpty) = true then .float else .int) _
    split
    · rename_i hsome
      refine .float hwhole hfraction hexponent fun hnil => ?_
      obtain ⟨hf, he⟩ := List.append_eq_nil_iff.mp hnil
      simp [hf, he] at hsome
    · rename_i hnone
      obtain ⟨rfl, he⟩ : fraction = [] ∧ exponent rest = [] := by simpa using hnone
      show Denotes (whole ++ [] ++ exponent rest) .int
        (String.ofList (whole ++ [] ++ exponent rest))
      rw [he, List.append_nil, List.append_nil]
      exact .int hwhole

/-- What is known of the result of cutting: the lexeme takes characters, or the error lies in the
text. -/
def Cuts (c : Char) (rest : List Char) : Except Fault Lexeme → Prop
  | .ok l => Takes c rest l
  | .error f => f.shift ≤ rest.length

theorem cuts_afterDigits {c : Char} {whole rest : List Char} (hwhole : IsWhole whole)
    {text : List Char} (htext : c :: text = whole ++ rest) :
    Cuts c text (afterDigits whole rest) := by
  unfold afterDigits
  split
  · rename_i more
    dsimp only
    split
    · -- the error lies at the point, which is a character of the text
      show whole.length ≤ text.length
      have hlength := congrArg List.length htext
      simp only [List.length_cons, List.length_append] at hlength
      omega
    · rename_i hdigits
      rw [List.isEmpty_iff] at hdigits
      have hfraction : IsFraction ('.' :: more.takeWhile Char.isDigit) :=
        ⟨_, isDigits_takeWhile hdigits, rfl⟩
      refine takes_finishNumber hwhole (Or.inr hfraction) ?_
      rw [htext, List.append_assoc, List.cons_append, List.takeWhile_append_dropWhile]
  · have htake : Takes c text (finishNumber (whole ++ []) rest false) :=
      takes_finishNumber hwhole (Or.inl rfl) (by rw [htext, List.append_nil])
    rw [List.append_nil] at htake
    exact htake

theorem cuts_number {c : Char} (hc : c = '-' ∨ c.isDigit = true) (rest : List Char) :
    Cuts c rest (number c rest) := by
  unfold number
  dsimp only
  split
  · exact Nat.zero_le _
  · rename_i hminus
    refine cuts_afterDigits ?_ ?_
    · have hdigits : ∀ d ∈ rest.takeWhile Char.isDigit, d.isDigit = true :=
        List.all_eq_true.mp List.all_takeWhile
      rcases hc with rfl | hc
      · exact ⟨_, isDigits_takeWhile fun h => hminus ⟨rfl, h⟩, Or.inr rfl⟩
      · exact ⟨_, ⟨List.cons_ne_nil _ _, List.forall_mem_cons.mpr ⟨hc, hdigits⟩⟩, Or.inl rfl⟩
    · rw [List.cons_append, List.takeWhile_append_dropWhile]

/-! ### String literals -/

theorem cuts_string {c : Char} (hc : c = '"' ∨ c = '\'') (rest : List Char) :
    Cuts c rest (string c rest) := by
  have hbackslash := ne_backslash_of_quote hc
  cases hresult : string c rest with
  | error f => exact ((string_eq_error_iff hbackslash).mp hresult).shift_le
  | ok l =>
    obtain ⟨body, text, after, rfl, -, rfl⟩ := (string_eq_ok_iff hbackslash).mp hresult
    have htake : (body ++ c :: after).take (body.length + 1) = body ++ [c] := by
      rw [List.append_cons]
      exact List.take_left' (by simp)
    refine ⟨?_, ?_⟩
    · show body.length + 1 ≤ (body ++ c :: after).length
      simp
    · show Denotes (c :: (body ++ c :: after).take (body.length + 1)) .string _
      rw [htake]
      exact .string hc

/-! ### Tokens -/

theorem takes_bracket {c : Char} {kind : TokenKind} (hc : (c, kind) ∈ brackets) (rest : List Char) :
    Takes c rest (single kind c) :=
  ⟨Nat.zero_le _, .bracket hc⟩

/-- An operator takes the characters of its symbol. -/
theorem takes_operator {op : Operator} {c : Char} (tail : List Char) {after : List Char}
    (hop : op.takesList = false) (hsymbol : op.symbol.toList = c :: tail) :
    Takes c (tail ++ after) ⟨.operator op, c :: tail, tail.length⟩ := by
  refine takes_of_prefix (List.cons_prefix_cons.mpr ⟨rfl, List.prefix_append _ _⟩) rfl ?_
  rw [← hsymbol, String.ofList_toList]
  exact .operator hop

/-- **What a text begins with takes its characters**, and an error lies among them. -/
theorem cuts_lexeme (c : Char) (rest : List Char) : Cuts c rest (lexeme c rest) := by
  have hordered : ∀ {long short : Operator}, long.takesList = false → short.takesList = false →
      long.symbol.toList = [c, '='] → short.symbol.toList = [c] →
      Takes c rest (ordered c rest long short) := by
    intro long short hlong hshort hlong' hshort'
    unfold ordered
    split
    · exact takes_operator ['='] hlong hlong'
    · exact takes_operator [] hshort hshort'
  unfold lexeme
  split
  case h_1 | h_2 | h_3 | h_4 | h_5 => exact takes_bracket (by decide) rest
  case h_6 | h_7 => exact takes_operator [] rfl rfl
  case h_8 | h_9 => exact hordered rfl rfl rfl rfl
  case h_10 =>
    split
    · exact takes_operator ['='] rfl rfl
    · exact takes_operator ['~'] rfl rfl
    · exact Nat.zero_le _
  case h_11 => exact cuts_string (Or.inl rfl) rest
  case h_12 => exact cuts_string (Or.inr rfl) rest
  case h_13 =>
    split
    · exact cuts_number ‹_› rest
    · split
      · exact takes_word ‹_› rest
      · exact Nat.zero_le _

theorem takes_of_lexeme {c : Char} {rest : List Char} {l : Lexeme} (h : lexeme c rest = .ok l) :
    Takes c rest l := by
  have hcuts := cuts_lexeme c rest
  rwa [h] at hcuts

theorem shift_le_of_lexeme {c : Char} {rest : List Char} {f : Fault}
    (h : lexeme c rest = .error f) :
    f.shift ≤ rest.length := by
  have hcuts := cuts_lexeme c rest
  rwa [h] at hcuts

end Lexer

/-! ## Pieces -/

/-- **A token in its place.** -/
structure Piece where
  /-- The characters in front of it that belong to no token. -/
  gap : List Char
  /-- The characters it was cut from. -/
  source : List Char
  /-- The token. -/
  token : Token

/-- The text of pieces that follow each other. -/
def Piece.text (pieces : List Piece) : List Char := pieces.flatMap fun x => x.gap ++ x.source

/-- **What is known of a piece**: the gap is blank, and the source has characters and
denotes the token, which is not the end of input and has the text of its source unless
it is a string literal. -/
structure Piece.Sound (x : Piece) : Prop where
  blank : ∀ c ∈ x.gap, Text.isBlank c = true
  nonempty : x.source ≠ []
  denotes : Lexer.Denotes x.source x.token.kind x.token.text
  text_eq : x.token.kind ≠ .string → x.token.text = String.ofList x.source
  kind_ne : x.token.kind ≠ .endOfInput

namespace Lexer

/-- **What a text is made up of** that begins at an offset and has the items `items`: pieces in
their places, and blanks up to the end of input, or characters with an error among them. -/
def Tiles (offset : Nat) (cs : List Char) (items : List (Except LexError Token)) : Prop :=
  ∃ (pieces : List Piece) (rest : List Char),
    cs = Piece.text pieces ++ rest ∧ (∀ x ∈ pieces, x.Sound)
    ∧ (∀ before x after, pieces = before ++ x :: after →
        x.token.offset = offset + (Piece.text before).length + x.gap.length)
    ∧ ((items = (pieces.map Piece.token ++ [Token.endOfInput (offset + cs.length)]).map .ok
        ∧ ∀ c ∈ rest, Text.isBlank c = true)
      ∨ ∃ e, items = (pieces.map Piece.token).map .ok ++ [.error e]
        ∧ offset + (Piece.text pieces).length ≤ e.offset ∧ e.offset < offset + cs.length)

/-- **A piece may stand in front** of what a text is made up of. -/
theorem Tiles.cons {x : Piece} {offset : Nat} {cs : List Char}
    {items : List (Except LexError Token)} (hx : x.Sound)
    (hoffset : x.token.offset = offset + x.gap.length)
    (h : Tiles (x.token.offset + x.source.length) cs items) :
    Tiles offset (x.gap ++ x.source ++ cs) (.ok x.token :: items) := by
  obtain ⟨pieces, rest, rfl, hsound, hplaced, hends⟩ := h
  have htext : Piece.text (x :: pieces) = x.gap ++ x.source ++ Piece.text pieces := rfl
  refine ⟨x :: pieces, rest, ?_, List.forall_mem_cons.mpr ⟨hx, hsound⟩, ?_, hends.imp ?_ ?_⟩
  · rw [htext]
    simp only [List.append_assoc]
  · intro before y after hcons
    rcases List.cons_eq_append_iff.mp hcons with ⟨rfl, hhead⟩ | ⟨before, rfl, hpieces⟩
    · obtain ⟨rfl, -⟩ := List.cons.inj hhead
      exact hoffset
    · rw [hplaced before y after hpieces, hoffset]
      show _ = offset + (x.gap ++ x.source ++ Piece.text before).length + _
      simp only [List.length_append]
      omega
  · rintro ⟨hitems, hblank⟩
    have hstop : x.token.offset + x.source.length + (Piece.text pieces ++ rest).length
        = offset + (x.gap ++ x.source ++ (Piece.text pieces ++ rest)).length := by
      simp only [List.length_append]
      omega
    exact ⟨by rw [hitems, hstop]; rfl, hblank⟩
  · rintro ⟨e, hitems, hleast, hgreatest⟩
    refine ⟨e, by rw [hitems]; rfl, ?_, ?_⟩
    · rw [htext]
      simp only [List.length_append] at hleast ⊢
      omega
    · simp only [List.length_append] at hgreatest ⊢
      omega

/-- **Every text is tiled by its items.** The induction follows the cuts. -/
theorem tokensFrom_tiles (offset : Nat) (cs : List Char) :
    Tiles offset cs (tokensFrom offset cs) := by
  induction offset, cs using tokensFrom.induct with
  | case1 offset cs hnil =>
    have hblank : ∀ c ∈ cs, Text.isBlank c = true := (Text.trimLeft_eq_nil_iff cs).mp hnil
    have htake : cs.takeWhile Text.isBlank = cs := List.takeWhile_eq_self_iff.mpr hblank
    refine ⟨[], cs, rfl, List.forall_mem_nil _, fun before x after h => ?_, Or.inl ⟨?_, hblank⟩⟩
    · simp at h
    · rw [tokensFrom_eq, hnil, htake]
      rfl
  | case2 offset cs c rest hcons f hf =>
    have hcs : cs.takeWhile Text.isBlank ++ c :: rest = cs :=
      hcons ▸ List.takeWhile_append_dropWhile
    have hlength := congrArg List.length hcs
    rw [List.length_append, List.length_cons] at hlength
    have hshift : f.shift ≤ rest.length := shift_le_of_lexeme hf
    let e : LexError := ⟨offset + (cs.takeWhile Text.isBlank).length + f.shift, f.cause⟩
    refine ⟨[], cs, rfl, List.forall_mem_nil _, fun before x after h => ?_, Or.inr ⟨e, ?_, ?_, ?_⟩⟩
    · simp at h
    · rw [tokensFrom_eq, hcons]
      simp only [hf]
      rfl
    · show offset + 0 ≤ offset + _ + f.shift
      omega
    · show offset + _ + f.shift < offset + cs.length
      omega
  | case3 offset cs start c rest hcons l hl ih =>
    have hcs : cs.takeWhile Text.isBlank ++ c :: rest = cs :=
      hcons ▸ List.takeWhile_append_dropWhile
    obtain ⟨hmore, hdenotes⟩ := takes_of_lexeme hl
    let x : Piece := ⟨cs.takeWhile Text.isBlank, c :: rest.take l.more,
      ⟨l.kind, String.ofList l.text, start⟩⟩
    have hx : x.Sound :=
      ⟨List.all_eq_true.mp List.all_takeWhile, hdenotes.ne_nil, hdenotes, hdenotes.text_eq,
        hdenotes.kind_ne⟩
    have hsource : x.source.length = l.more + 1 := by
      show (rest.take l.more).length + 1 = l.more + 1
      rw [List.length_take_of_le hmore]
    have htext : x.gap ++ x.source ++ rest.drop l.more = cs := by
      show cs.takeWhile Text.isBlank ++ (c :: rest.take l.more) ++ rest.drop l.more = cs
      rw [List.append_assoc, List.cons_append, List.take_append_drop, hcs]
    have hitems : tokensFrom offset cs
        = .ok x.token :: tokensFrom (x.token.offset + x.source.length) (rest.drop l.more) := by
      rw [tokensFrom_eq, hcons, hsource]
      simp only [hl]
      rfl
    rw [hitems, ← htext]
    refine Tiles.cons hx rfl ?_
    rw [hsource]
    exact ih

/-! ## One token at a time -/

namespace Reader

theorem item?_of_finished {r : Reader} (h : r.finished = true) (n : Nat) : r.item? n = none := by
  have hnext : r.next = (none, r) := if_pos h
  induction n with
  | zero =>
    unfold item?
    rw [hnext]
  | succ n ih =>
    unfold item?
    rw [hnext, ih]

/-- **The next item is the first one of the text**, and it is the last one or the
reader goes on behind it. -/
theorem next_eq (cs : List Char) (offset : Nat) :
    ∃ item r, Reader.next ⟨cs, offset, false⟩ = (some item, r)
      ∧ (r.finished = true ∧ tokensFrom offset cs = [item]
        ∨ r.finished = false ∧ tokensFrom offset cs = item :: tokensFrom r.offset r.rest) := by
  rw [tokensFrom_eq]
  unfold next
  dsimp only
  rw [if_neg Bool.false_ne_true]
  cases Text.trimLeft cs with
  | nil => exact ⟨_, _, rfl, Or.inl ⟨rfl, rfl⟩⟩
  | cons c rest =>
    dsimp only
    cases lexeme c rest with
    | error f => exact ⟨_, _, rfl, Or.inl ⟨rfl, rfl⟩⟩
    | ok l => exact ⟨_, _, rfl, Or.inr ⟨rfl, rfl⟩⟩

/-- **A reader gives the items of its text**, and nothing after the last one. The induction is on
the number of items before. -/
theorem item?_eq (cs : List Char) (offset n : Nat) :
    Reader.item? ⟨cs, offset, false⟩ n = (tokensFrom offset cs)[n]? := by
  induction n generalizing cs offset with
  | zero =>
    obtain ⟨item, r, hnext, ⟨-, hitems⟩ | ⟨-, hitems⟩⟩ := next_eq cs offset
    all_goals
      unfold item?
      rw [hnext, hitems]
      rfl
  | succ n ih =>
    obtain ⟨item, r, hnext, ⟨hfinished, hitems⟩ | ⟨hfinished, hitems⟩⟩ := next_eq cs offset
    · unfold item?
      rw [hnext, hitems, item?_of_finished hfinished]
      rfl
    · obtain ⟨rest, start, finished⟩ := r
      obtain rfl : finished = false := hfinished
      unfold item?
      rw [hnext, hitems, List.getElem?_cons_succ]
      exact ih rest start

end Reader
end Lexer

/-- **Tokens tile the query.** A reader gives the items of a query and then nothing for ever. The
query is its pieces one after the other and what follows them: every piece is a blank gap and the
source of a token, which denotes the token and begins at its offset. After the pieces come blanks
up to the end of input, whose offset is the length of the query, or an error that lies behind the
last piece and inside the query. -/
theorem tokenize_tiles (q : String) :
    (∀ n, (Lexer.Reader.ofQuery q).item? n = (tokenize q)[n]?)
    ∧ ∃ (pieces : List Piece) (rest : List Char), q.toList = Piece.text pieces ++ rest
      ∧ (∀ x ∈ pieces, x.Sound)
      ∧ (∀ before x after, pieces = before ++ x :: after →
          x.token.offset = (Piece.text before).length + x.gap.length)
      ∧ ((tokenize q = (pieces.map Piece.token ++ [Token.endOfInput q.length]).map .ok
          ∧ ∀ c ∈ rest, Text.isBlank c = true)
        ∨ ∃ e, tokenize q = (pieces.map Piece.token).map .ok ++ [.error e]
          ∧ (Piece.text pieces).length ≤ e.offset ∧ e.offset < q.length) := by
  refine ⟨Lexer.Reader.item?_eq q.toList 0, ?_⟩
  have h : Lexer.Tiles 0 q.toList (tokenize q) := Lexer.tokensFrom_tiles 0 q.toList
  unfold Lexer.Tiles at h
  simpa only [Nat.zero_add, String.length_toList] using h

end RecordQuery
