import RecordQuery.Proofs.Query.Lexemes

/-!
# Printing and reading back

What becomes of an expression that is written as a query and read again. Writing is made of two
steps that do not know of each other: `Expr.contents` are the tokens of the written form, without
their offsets. The text spells these tokens (`Expr.spells`), which is a matter of characters; and
whatever tokens have these contents, they are a phrase of the grammar whose tree is the expression
again but for offsets (`Expr.reads`), which is a matter of the grammar.

Both need the names and integers of the expression to be such as can be written
(`Expr.Printable`), and those of an expression that was read are (`printable_of_parse`).
Numbers that are no integers are left out: they are written in the shortest form, which
may be that of an integer.

The written form has a parenthesis for every connective and a keyword for every negation, so its
nesting is `Expr.levels`: **a tree can be read back exactly as long as that is within the limit**.
-/

namespace RecordQuery

open Grammar Lexer

/-! ## What can be written -/

/-- **How deep an expression is**: the greatest number of connectives and negations above a
comparison. -/
def Expr.levels : Expr → Nat
  | .logical _ left right => max left.levels right.levels + 1
  | .not operand _ => operand.levels + 1
  | .comparison _ => 0

/-- A path that a name writes. -/
def NamePath.Printable (p : NamePath) : Prop :=
  IsName (dotted p.segments).toList ∧ splitPoints (dotted p.segments) = p.segments ∧ "" ∉ p.segments

/-- A value that is written as one token and read back from it. -/
def LiteralValue.Printable : LiteralValue → Prop
  | .int n => leastInt64 ≤ n ∧ n ≤ greatestInt64
  | .float _ => False
  | _ => True

/-- An operand of which every part can be written. -/
def Operand.Printable : Operand → Prop
  | .literal l => l.value.Printable
  | .list items _ => ∀ l ∈ items, l.value.Printable
  | .name p => p.Printable

/-- A comparison of which every part can be written. -/
def Comparison.Printable (c : Comparison) : Prop := c.field.Printable ∧ c.value.Printable

/-- **An expression whose comparisons can be written.** -/
def Expr.Printable (e : Expr) : Prop := ∀ c ∈ e.comparisons, c.Printable

/-! ## The tokens of the written form -/

/-- The token of a value. -/
def LiteralValue.content : LiteralValue → TokenKind × String
  | .int n => (.int, String.ofList (intText n))
  | .float x => (.float, x.text numberLayout)
  | .string t => (.string, t)
  | .bool b => (.bool, if b then "true" else "false")
  | .null => (.null, "null")

/-- The tokens of the items of a list, with a comma between any two. -/
def itemContents : List Literal → List (TokenKind × String)
  | [] => []
  | [l] => [l.value.content]
  | l :: items => l.value.content :: (.comma, ",") :: itemContents items

/-- The tokens of an operand. -/
def Operand.contents : Operand → List (TokenKind × String)
  | .literal l => [l.value.content]
  | .list items _ => (.leftBracket, "[") :: (itemContents items ++ [(.rightBracket, "]")])
  | .name p => [(.name, dotted p.segments)]

/-- The tokens of a comparison. -/
def Comparison.contents (c : Comparison) : List (TokenKind × String) :=
  (.name, dotted c.field.segments) :: (operatorContents c.op ++ c.value.contents)

/-- **The tokens of an expression** in its written form. -/
def Expr.contents : Expr → List (TokenKind × String)
  | .logical op left right =>
    (.leftParen, "(")
      :: (left.contents ++ (op.kind, op.keyword) :: (right.contents ++ [(.rightParen, ")")]))
  | .not operand _ => (.not, "not") :: operand.contents
  | .comparison c => c.contents

/-! ## The written form spells them -/

/-- A name is spelled by its path. -/
theorem NamePath.spells {p : NamePath} (h : p.Printable) :
    Spells Stops (dotted p.segments).toList [(.name, dotted p.segments)] := by
  obtain ⟨⟨c, tail, htext, hc, htail, hkind⟩, -, -⟩ := h
  have hword := spells_word hc htail
  rw [← htext, hkind, String.ofList_toList] at hword
  exact hword

theorem LiteralValue.spells {v : LiteralValue} (h : v.Printable) :
    Spells Stops v.render.toList [v.content] := by
  cases v with
  | int n =>
    show Spells Stops (String.ofList (intText n)).toList _
    rw [String.toList_ofList]
    exact spells_intText n
  | float x => exact h.elim
  | string t => exact (spells_quote t).of_always
  | bool b =>
    cases b with
    | true => exact spells_word (by decide) (by decide)
    | false => exact spells_word (by decide) (by decide)
  | null => exact spells_word (by decide) (by decide)

/-- The items of a list are spelled with commas between them. -/
theorem spells_items {items : List Literal} (h : ∀ l ∈ items, l.value.Printable) :
    Spells Stops (String.intercalate ", " (items.map (·.value.render))).toList
      (itemContents items) := by
  induction items with
  | nil => exact spells_nil
  | cons l items ih =>
    obtain ⟨hl, hitems⟩ := List.forall_mem_cons.mp h
    cases items with
    | nil =>
      show Spells Stops (String.intercalate ", " [l.value.render]).toList [l.value.content]
      rw [String.intercalate_singleton]
      exact LiteralValue.spells hl
    | cons l' items =>
      have hcomma : Spells Stops
          ([',', ' '] ++ (String.intercalate ", " ((l' :: items).map (·.value.render))).toList)
          ((.comma, ",") :: itemContents (l' :: items)) :=
        spells_comma.append (ih hitems) fun _ _ => trivial
      have htext : (String.intercalate ", " ((l :: l' :: items).map (·.value.render))).toList
          = l.value.render.toList
            ++ ([',', ' ']
              ++ (String.intercalate ", " ((l' :: items).map (·.value.render))).toList) := by
        simp [String.intercalate_cons_cons]
      rw [htext]
      exact (LiteralValue.spells hl).append hcomma fun _ _ => stops_cons (by decide) _

theorem Operand.spells {v : Operand} (h : v.Printable) :
    Spells Stops v.render.toList v.contents := by
  cases v with
  | literal l => exact LiteralValue.spells h
  | name p => exact NamePath.spells h
  | list items offset =>
    have htext : (Operand.list items offset).render.toList
        = ['['] ++ ((String.intercalate ", " (items.map (·.value.render))).toList ++ [']']) := by
      simp [Operand.render]
    have hitems : Spells (fun _ => True)
        ((String.intercalate ", " (items.map (·.value.render))).toList ++ [']'])
        (itemContents items ++ [(.rightBracket, "]")]) :=
      (spells_items h).append (spells_single (by decide) fun _ => rfl) fun _ _ =>
        stops_cons (by decide) _
    have hopen : Spells (fun _ => True) ['['] [(.leftBracket, "[")] :=
      spells_single (by decide) fun _ => rfl
    rw [htext]
    exact (hopen.append hitems fun _ _ => trivial).of_always

theorem Comparison.spells {c : Comparison} (h : c.Printable) :
    Spells Stops c.render.toList c.contents := by
  obtain ⟨hfield, hvalue⟩ := h
  have htext : c.render.toList
      = (dotted c.field.segments).toList
        ++ ([' '] ++ ((c.op.symbol.toList ++ [' ']) ++ c.value.render.toList)) := by
    simp [Comparison.render]
  -- the first blank ends the name, and the second one belongs to the operator
  have hrest : Spells Stops ([' '] ++ ((c.op.symbol.toList ++ [' ']) ++ c.value.render.toList))
      ([] ++ (operatorContents c.op ++ c.value.contents)) := by
    refine (spells_blank (by decide)).append ?_ fun _ _ => trivial
    exact (spells_operator c.op).append (Operand.spells hvalue) fun _ _ => trivial
  rw [htext]
  exact (NamePath.spells hfield).append hrest fun _ _ => stops_cons (by decide) _

/-- **The written form of an expression spells its tokens.** -/
theorem Expr.spells {e : Expr} (h : e.Printable) : Spells Stops e.render.toList e.contents := by
  induction e with
  | logical op left right ihl ihr =>
    obtain ⟨hl, hr⟩ := List.forall_mem_append.mp h
    have hkeyword :
        Spells (fun _ => True) (op.keyword.toList ++ [' ']) [(op.kind, op.keyword)] := by
      cases op with
      | and => exact spells_keyword (by decide) (by decide) rfl rfl
      | or => exact spells_keyword (by decide) (by decide) rfl rfl
    have htext : (Expr.logical op left right).render.toList
        = ['('] ++ (left.render.toList ++ ([' '] ++ ((op.keyword.toList ++ [' '])
          ++ (right.render.toList ++ [')'])))) := by
      simp [Expr.render]
    have hright : Spells (fun _ => True) (right.render.toList ++ [')'])
        (right.contents ++ [(.rightParen, ")")]) :=
      (ihr hr).append (spells_single (by decide) fun _ => rfl) fun _ _ => stops_cons (by decide) _
    have hrest : Spells (fun _ => True)
        ([' '] ++ ((op.keyword.toList ++ [' ']) ++ (right.render.toList ++ [')'])))
        ([] ++ ([(op.kind, op.keyword)] ++ (right.contents ++ [(.rightParen, ")")]))) :=
      (spells_blank (by decide)).append (hkeyword.append hright fun _ _ => trivial) fun _ _ =>
        trivial
    have hleft := (ihl hl).append hrest fun _ _ => stops_cons (by decide) _
    have hopen : Spells (fun _ => True) ['('] [(.leftParen, "(")] :=
      spells_single (by decide) fun _ => rfl
    rw [htext]
    exact (hopen.append hleft fun _ _ => trivial).of_always
  | not operand offset ih =>
    have hnot : Spells (fun _ => True) ("not".toList ++ [' ']) [(.not, "not")] :=
      spells_keyword (by decide) (by decide) rfl rfl
    have htext : (Expr.not operand offset).render.toList
        = ("not".toList ++ [' ']) ++ operand.render.toList := by
      simp [Expr.render]
    rw [htext]
    exact hnot.append (ih h) fun _ _ => trivial
  | comparison c => exact Comparison.spells (List.forall_mem_singleton.mp h)

/-! ## The grammar reads them -/

/-- What a token of known contents is. -/
theorem content_eq_iff {t : Token} {kind : TokenKind} {text : String} :
    t.content = (kind, text) ↔ t.kind = kind ∧ t.text = text := by
  unfold Token.content
  rw [Prod.mk.injEq]

/-- The sign of an integer's text, and its digits. -/
theorem splitSign_intText (n : Int) :
    splitSign (intText n) = (decide (n < 0), digitsOf n.natAbs) := by
  unfold intText
  split
  · rename_i h
    rw [decide_eq_true h]
    rfl
  · rename_i h
    rw [decide_eq_false h]
    have hne : digitsOf n.natAbs ≠ [] := Nat.toDigits_ne_nil
    obtain ⟨d, ds, hcons⟩ := List.exists_cons_of_ne_nil hne
    have hd : d.isDigit = true :=
      isDigit_of_mem_digitsOf (n := n.natAbs) (hcons ▸ List.mem_cons_self)
    rw [hcons]
    unfold splitSign
    split
    · rename_i h
      obtain rfl := (List.cons.inj h).1
      exact absurd hd (by decide)
    · rename_i h
      obtain rfl := (List.cons.inj h).1
      exact absurd hd (by decide)
    · rfl

/-- **The text of an integer writes it.** -/
theorem writtenInt_intText (n : Int) : IsIntText (intText n) ∧ writtenInt (intText n) = n := by
  unfold IsIntText writtenInt
  rw [splitSign_intText]
  refine ⟨⟨Nat.toDigits_ne_nil, fun c hc => isDigit_of_mem_digitsOf hc⟩, ?_⟩
  rw [ofDigits_digitsOf]
  dsimp only
  split
  · rename_i h
    have := of_decide_eq_true h
    omega
  · rename_i h
    have := of_decide_eq_false (Bool.eq_false_iff.mpr h)
    omega

/-- **The token of a value is read as the value.** -/
theorem LiteralValue.reads {v : LiteralValue} (h : v.Printable) {t : Token}
    (ht : t.content = v.content) :
    t.kind.isLiteral = true ∧ t.Legal ∧ t.written.value = v := by
  cases v with
  | int n =>
    obtain ⟨hkind, htext⟩ := content_eq_iff.mp ht
    obtain ⟨hint, hvalue⟩ := writtenInt_intText n
    have hlist : t.text.toList = intText n := by rw [htext, String.toList_ofList]
    unfold Token.Legal Token.written
    rw [hkind, hlist]
    refine ⟨rfl, ⟨hint, ?_⟩, congrArg LiteralValue.int hvalue⟩
    rw [hvalue]
    exact h
  | float x => exact h.elim
  | string text =>
    obtain ⟨hkind, rfl⟩ := content_eq_iff.mp ht
    unfold Token.Legal Token.written
    rw [hkind]
    exact ⟨rfl, trivial, rfl⟩
  | bool b =>
    obtain ⟨hkind, htext⟩ := content_eq_iff.mp ht
    unfold Token.Legal Token.written
    rw [hkind, htext]
    cases b with
    | true => exact ⟨rfl, trivial, rfl⟩
    | false => exact ⟨rfl, trivial, rfl⟩
  | null =>
    obtain ⟨hkind, -⟩ := content_eq_iff.mp ht
    unfold Token.Legal Token.written
    rw [hkind]
    exact ⟨rfl, trivial, rfl⟩

/-- **The token of a path is read as the path.** -/
theorem NamePath.reads {p : NamePath} (h : p.Printable) {t : Token}
    (ht : t.content = (.name, dotted p.segments)) :
    t.kind = .name ∧ t.Legal ∧ t.writtenPath.segments = p.segments := by
  obtain ⟨-, hsplit, hsegments⟩ := h
  obtain ⟨hkind, htext⟩ := content_eq_iff.mp ht
  have hread : t.segments = p.segments := by
    unfold Token.segments
    rw [htext, hsplit]
  refine ⟨hkind, ?_, hread⟩
  unfold Token.Legal
  rw [hkind]
  exact hread ▸ hsegments

/-- **The tokens of items are read as the items.** -/
theorem reads_items {items : List Literal} (h : ∀ l ∈ items, l.value.Printable) {ts : List Token}
    (hts : ts.map Token.content = itemContents items) :
    (∀ t ∈ ts, t.Legal)
      ∧ ∃ ls : List Literal, ls.map Literal.value = items.map Literal.value
        ∧ ∀ us, ItemsAt (ts ++ us) ls us := by
  induction items generalizing ts with
  | nil =>
    obtain rfl := List.map_eq_nil_iff.mp hts
    exact ⟨nofun, [], rfl, fun us => .none⟩
  | cons l items ih =>
    obtain ⟨hl, hitems⟩ := List.forall_mem_cons.mp h
    cases items with
    | nil =>
      obtain ⟨t, ts, rfl, ht, hrest⟩ := List.map_eq_cons_iff.mp hts
      obtain rfl := List.map_eq_nil_iff.mp hrest
      obtain ⟨hkind, hlegal, hvalue⟩ := LiteralValue.reads hl ht
      refine ⟨List.forall_mem_singleton.mpr hlegal, [t.written], ?_, fun us => .last hkind⟩
      rw [List.map_singleton, hvalue]
      rfl
    | cons l' items =>
      obtain ⟨t, ts, rfl, ht, hrest⟩ := List.map_eq_cons_iff.mp hts
      obtain ⟨c, ts, rfl, hc, hrest⟩ := List.map_eq_cons_iff.mp hrest
      obtain ⟨hkind, hlegal, hvalue⟩ := LiteralValue.reads hl ht
      obtain ⟨hcomma, -⟩ := content_eq_iff.mp hc
      obtain ⟨hlegals, ls, hls, hat⟩ := ih hitems hrest
      refine ⟨?_, t.written :: ls, ?_, fun us => .more hkind hcomma (hat us)⟩
      · have hlegal' : c.Legal := Token.legal_of_kind hcomma rfl
        exact List.forall_mem_cons.mpr ⟨hlegal, List.forall_mem_cons.mpr ⟨hlegal', hlegals⟩⟩
      · rw [List.map_cons, hls, hvalue]
        rfl

/-- Lists of literals with the same values are the same but for offsets. -/
theorem bare_list_of_values_eq {ls ls' : List Literal} {offset offset' : Nat}
    (h : ls'.map Literal.value = ls.map Literal.value) :
    (Operand.list ls' offset').bare = (Operand.list ls offset).bare := by
  have hmap : ∀ ls : List Literal, (ls.map fun l => (⟨l.value, 0⟩ : Literal))
      = (ls.map Literal.value).map fun v => ⟨v, 0⟩ := fun ls => by rw [List.map_map]; rfl
  show Operand.list (ls'.map fun l => ⟨l.value, 0⟩) 0 = .list (ls.map fun l => ⟨l.value, 0⟩) 0
  rw [hmap, hmap, h]

/-- **The tokens of an operand are read as the operand.** -/
theorem Operand.reads {v : Operand} (h : v.Printable) {ts : List Token}
    (hts : ts.map Token.content = v.contents) :
    (∀ t ∈ ts, t.Legal) ∧ ∃ v' : Operand, v'.bare = v.bare ∧ ∀ us, OperandAt (ts ++ us) v' us := by
  cases v with
  | literal l =>
    obtain ⟨t, ts, rfl, ht, hrest⟩ := List.map_eq_cons_iff.mp hts
    obtain rfl := List.map_eq_nil_iff.mp hrest
    obtain ⟨hkind, hlegal, hvalue⟩ := LiteralValue.reads h ht
    refine ⟨List.forall_mem_singleton.mpr hlegal, _, ?_, fun us => .literal hkind⟩
    show Operand.literal ⟨t.written.value, 0⟩ = .literal ⟨l.value, 0⟩
    rw [hvalue]
  | name p =>
    obtain ⟨t, ts, rfl, ht, hrest⟩ := List.map_eq_cons_iff.mp hts
    obtain rfl := List.map_eq_nil_iff.mp hrest
    obtain ⟨hkind, hlegal, hsegments⟩ := NamePath.reads h ht
    refine ⟨List.forall_mem_singleton.mpr hlegal, _, ?_, fun us => .name hkind⟩
    show Operand.name ⟨t.writtenPath.segments, 0⟩ = .name ⟨p.segments, 0⟩
    rw [hsegments]
  | list items offset =>
    obtain ⟨o, ts, rfl, ho, hrest⟩ := List.map_eq_cons_iff.mp hts
    obtain ⟨ts, cs, rfl, hitems, hcs⟩ := List.map_eq_append_iff.mp hrest
    obtain ⟨c, cs, rfl, hc, hnil⟩ := List.map_eq_cons_iff.mp hcs
    obtain rfl := List.map_eq_nil_iff.mp hnil
    obtain ⟨hopen, -⟩ := content_eq_iff.mp ho
    obtain ⟨hclose, -⟩ := content_eq_iff.mp hc
    obtain ⟨hlegals, ls, hls, hat⟩ := reads_items h hitems
    refine ⟨?_, .list ls o.offset, bare_list_of_values_eq hls, fun us => ?_⟩
    · have hlegal : o.Legal := Token.legal_of_kind hopen rfl
      have hlegal' : c.Legal := Token.legal_of_kind hclose rfl
      refine List.forall_mem_cons.mpr ⟨hlegal, List.forall_mem_append.mpr ⟨hlegals, ?_⟩⟩
      exact List.forall_mem_singleton.mpr hlegal'
    · rw [List.cons_append, List.append_assoc]
      exact .list false hopen (hat (c :: us)) hclose

/-- The tokens of an operator are read as the operator. -/
theorem reads_operator {op : Operator} {ts : List Token}
    (hts : ts.map Token.content = operatorContents op) :
    (∀ t ∈ ts, t.Legal) ∧ ∀ us, OperatorAt (ts ++ us) op us := by
  have hlegal : ∀ {t : Token} {op : Operator}, t.kind = .operator op → t.Legal :=
    fun ht => Token.legal_of_kind ht rfl
  have hsymbol : ts.map Token.content = [(.operator op, op.symbol)] →
      (∀ t ∈ ts, t.Legal) ∧ ∀ us, OperatorAt (ts ++ us) op us := by
    intro hts
    obtain ⟨t, ts, rfl, ht, hrest⟩ := List.map_eq_cons_iff.mp hts
    obtain rfl := List.map_eq_nil_iff.mp hrest
    obtain ⟨hkind, -⟩ := content_eq_iff.mp ht
    exact ⟨List.forall_mem_singleton.mpr (hlegal hkind), fun us => .symbol hkind⟩
  by_cases hop : op = .notIn
  · subst hop
    obtain ⟨t, ts, rfl, ht, hrest⟩ := List.map_eq_cons_iff.mp hts
    obtain ⟨u, ts, rfl, hu, hrest⟩ := List.map_eq_cons_iff.mp hrest
    obtain rfl := List.map_eq_nil_iff.mp hrest
    obtain ⟨hnot, -⟩ := content_eq_iff.mp ht
    obtain ⟨hin, -⟩ := content_eq_iff.mp hu
    have hlegal' : t.Legal := Token.legal_of_kind hnot rfl
    refine ⟨List.forall_mem_cons.mpr ⟨hlegal', ?_⟩, fun us => .notIn hnot hin⟩
    exact List.forall_mem_singleton.mpr (hlegal hin)
  · refine hsymbol (hts.trans ?_)
    cases op with
    | notIn => exact absurd rfl hop
    | _ => rfl

/-- **The tokens of a comparison are read as the comparison.** -/
theorem Comparison.reads {c : Comparison} (h : c.Printable) {ts : List Token}
    (hts : ts.map Token.content = c.contents) :
    (∀ t ∈ ts, t.Legal)
      ∧ ∃ c' : Comparison, c'.bare = c.bare ∧ ∀ us, ComparisonAt (ts ++ us) c' us := by
  obtain ⟨hfield, hvalue⟩ := h
  obtain ⟨t, ts, rfl, ht, hrest⟩ := List.map_eq_cons_iff.mp hts
  obtain ⟨ops, vs, rfl, hops, hvs⟩ := List.map_eq_append_iff.mp hrest
  obtain ⟨hname, hlegal, hsegments⟩ := NamePath.reads hfield ht
  obtain ⟨hlegals, hop⟩ := reads_operator hops
  obtain ⟨hlegals', v', hbare, hv⟩ := Operand.reads hvalue hvs
  refine ⟨?_, ⟨t.writtenPath, c.op, v', t.offset⟩, ?_, fun us => ?_⟩
  · exact List.forall_mem_cons.mpr ⟨hlegal, List.forall_mem_append.mpr ⟨hlegals, hlegals'⟩⟩
  · show Comparison.mk ⟨t.writtenPath.segments, 0⟩ c.op v'.bare 0
      = ⟨⟨c.field.segments, 0⟩, c.op, c.value.bare, 0⟩
    rw [hsegments, hbare]
  · rw [List.cons_append, List.append_assoc]
    exact .mk hname (hop _) (hv us)

/-- A negation is a whole disjunction. -/
theorem derives_alone {n k : Nat} {ts us : List Token} {e : Expr}
    (h : Derives .negation n k ts e us) :
    Derives (.chain .or) n k ts e us := by
  have hand : Derives (.chain .and) (max n 0) (k + 0) ts e us := .chain h .done
  have hor : Derives (.chain .or) (max (max n 0) 0) (k + 0 + 0) ts e us := .chain hand .done
  simpa using hor

/-- Two negations with a connective between them, as a whole disjunction. -/
theorem derives_logical {op : Connective} {m n j k : Nat} {t : Token} {ts us vs : List Token}
    {a b : Expr} (ha : Derives .negation m j ts a (t :: us)) (ht : t.kind = op.kind)
    (hb : Derives .negation n k us b vs) :
    Derives (.chain .or) (max m n) (j + k) ts (.logical op a b) vs := by
  cases op with
  | and =>
    have hand : Derives (.chain .and) (max m (max n 0)) (j + (k + 0)) ts (.logical .and a b) vs :=
      .chain ha (.link ht hb .done)
    have hor : Derives (.chain .or) (max (max m (max n 0)) 0) (j + (k + 0) + 0) ts _ vs :=
      .chain hand .done
    simpa using hor
  | or =>
    have hright : Derives (.chain .and) (max n 0) (k + 0) us b vs := .chain hb .done
    have hleft : Derives (.chain .and) (max m 0) (j + 0) ts a (t :: us) := .chain ha .done
    have hor :
        Derives (.chain .or) (max (max m 0) (max (max n 0) 0)) (j + 0 + (k + 0 + 0)) ts _ vs :=
      .chain hleft (.link ht hright .done)
    simpa using hor

/-- **The tokens of an expression are read as the expression.** The induction is on the
expression: a connective stands in parentheses, so every part of the written form is a
negation. -/
theorem Expr.reads {e : Expr} (h : e.Printable) {ts : List Token}
    (hts : ts.map Token.content = e.contents) :
    (∀ t ∈ ts, t.Legal)
      ∧ ∃ e' : Expr, e'.bare = e.bare
        ∧ ∀ us, Derives .negation e.levels e.comparisons.length (ts ++ us) e' us := by
  induction e generalizing ts with
  | logical op left right ihl ihr =>
    obtain ⟨hl, hr⟩ := List.forall_mem_append.mp h
    -- the tokens are a parenthesis, the left side, the keyword, the right side and a parenthesis
    obtain ⟨o, ts, rfl, ho, hrest⟩ := List.map_eq_cons_iff.mp hts
    obtain ⟨ls, ts, rfl, hls, hrest⟩ := List.map_eq_append_iff.mp hrest
    obtain ⟨t, ts, rfl, ht, hrest⟩ := List.map_eq_cons_iff.mp hrest
    obtain ⟨rs, ts, rfl, hrs, hrest⟩ := List.map_eq_append_iff.mp hrest
    obtain ⟨c, ts, rfl, hc, hnil⟩ := List.map_eq_cons_iff.mp hrest
    obtain rfl := List.map_eq_nil_iff.mp hnil
    obtain ⟨hopen, -⟩ := content_eq_iff.mp ho
    obtain ⟨hconnective, -⟩ := content_eq_iff.mp ht
    obtain ⟨hclose, -⟩ := content_eq_iff.mp hc
    obtain ⟨hlegall, a, hbarel, hdl⟩ := ihl hl hls
    obtain ⟨hlegalr, b, hbarer, hdr⟩ := ihr hr hrs
    refine ⟨?_, .logical op a b, ?_, fun us => ?_⟩
    · have hlegalo : o.Legal := Token.legal_of_kind hopen rfl
      have hlegalt : t.Legal := Token.legal_of_connective hconnective
      have hlegalc : c.Legal := Token.legal_of_kind hclose rfl
      refine List.forall_mem_cons.mpr ⟨hlegalo, List.forall_mem_append.mpr ⟨hlegall, ?_⟩⟩
      refine List.forall_mem_cons.mpr ⟨hlegalt, List.forall_mem_append.mpr ⟨hlegalr, ?_⟩⟩
      exact List.forall_mem_singleton.mpr hlegalc
    · unfold Expr.bare
      rw [hbarel, hbarer]
    · have hboth : Derives (.chain .or) (max left.levels right.levels)
          (left.comparisons.length + right.comparisons.length)
          (ls ++ t :: (rs ++ c :: us)) (.logical op a b) (c :: us) :=
        derives_logical (hdl _) hconnective (hdr _)
      unfold Expr.levels Expr.comparisons
      rw [List.length_append]
      simpa using Derives.group hopen hboth hclose
  | not operand offset ih =>
    obtain ⟨t, ts, rfl, ht, hrest⟩ := List.map_eq_cons_iff.mp hts
    obtain ⟨hnot, -⟩ := content_eq_iff.mp ht
    obtain ⟨hlegal, e', hbare, hd⟩ := ih h hrest
    refine ⟨List.forall_mem_cons.mpr ⟨?_, hlegal⟩, .not e' t.offset, ?_,
      fun us => .not hnot (hd us)⟩
    · exact Token.legal_of_kind hnot rfl
    · unfold Expr.bare
      rw [hbare]
  | comparison c =>
    obtain ⟨hlegal, c', hbare, hat⟩ := Comparison.reads (List.forall_mem_singleton.mp h) hts
    refine ⟨hlegal, .comparison c', ?_, fun us => .comparison (hat us)⟩
    unfold Expr.bare
    rw [hbare]

/-! ## What is read can be written -/

/-- The literals of an operand. -/
def Operand.literals : Operand → List Literal
  | .literal l => [l]
  | .list items _ => items
  | .name _ => []

/-- Whether a value is a number that is no integer. -/
def LiteralValue.isFloat : LiteralValue → Bool
  | .float _ => true
  | _ => false

/-- **An expression without numbers** that are no integers. -/
def Expr.NoFloat (e : Expr) : Prop :=
  ∀ c ∈ e.comparisons, ∀ l ∈ c.value.literals, l.value.isFloat = false

instance (e : Expr) : Decidable e.NoFloat :=
  inferInstanceAs (Decidable (∀ c ∈ e.comparisons, ∀ l ∈ c.value.literals, l.value.isFloat = false))

theorem Token.printable_written {t : Token} (ht : t.Legal) (hkind : t.kind.isLiteral = true)
    (hfloat : t.written.value.isFloat = false) : t.written.value.Printable := by
  unfold Token.Legal at ht
  unfold Token.written at hfloat ⊢
  cases hk : t.kind with
  | int =>
    rw [hk] at ht
    exact ht.2
  | float =>
    rw [hk] at hfloat
    exact nomatch hfloat
  | string | bool | null => trivial
  | _ => simp [hk, TokenKind.isLiteral] at hkind

theorem Token.printable_writtenPath {t : Token} (ht : t.Proper) (hkind : t.kind = .name) :
    t.writtenPath.Printable := by
  obtain ⟨hlegal, hname⟩ := ht
  have htext : dotted t.writtenPath.segments = t.text := dotted_splitPoints t.text
  unfold Token.Legal at hlegal
  rw [hkind] at hlegal
  refine ⟨?_, ?_, hlegal⟩
  · rw [htext]
    exact hname hkind
  · rw [htext]
    rfl

theorem printable_of_itemsAt {ts us : List Token} {ls : List Literal} (h : ItemsAt ts ls us)
    (hts : ∀ t ∈ ts, t.Proper) (hfloat : ∀ l ∈ ls, l.value.isFloat = false) :
    ∀ l ∈ ls, l.value.Printable := by
  induction h with
  | none => exact nofun
  | last hkind =>
    rw [List.forall_mem_singleton] at hfloat ⊢
    exact Token.printable_written (hts _ List.mem_cons_self).1 hkind hfloat
  | more hkind _ _ ih =>
    rw [List.forall_mem_cons] at hfloat ⊢
    simp only [List.forall_mem_cons] at hts
    exact ⟨Token.printable_written hts.1.1 hkind hfloat.1, ih hts.2.2 hfloat.2⟩

theorem printable_of_operandAt {ts us : List Token} {v : Operand} (h : OperandAt ts v us)
    (hts : ∀ t ∈ ts, t.Proper) (hfloat : ∀ l ∈ v.literals, l.value.isFloat = false) :
    v.Printable := by
  cases h with
  | literal hkind =>
    exact Token.printable_written (hts _ List.mem_cons_self).1 hkind (hfloat _ List.mem_cons_self)
  | name hkind => exact Token.printable_writtenPath (hts _ List.mem_cons_self) hkind
  | list round _ hitems _ =>
    exact printable_of_itemsAt hitems (fun t ht => hts t (List.mem_cons_of_mem _ ht)) hfloat

theorem printable_of_comparisonAt {ts us : List Token} {c : Comparison} (h : ComparisonAt ts c us)
    (hts : ∀ t ∈ ts, t.Proper) (hfloat : ∀ l ∈ c.value.literals, l.value.isFloat = false) :
    c.Printable := by
  obtain ⟨hname, hop, hv⟩ := h
  obtain ⟨ht, hts⟩ := List.forall_mem_cons.mp hts
  refine ⟨Token.printable_writtenPath ht hname, printable_of_operandAt hv ?_ hfloat⟩
  exact fun t ht => hts t (hop.suffix.subset ht)

/-- The tree before a phrase. -/
def Grammar.Phrase.given : Phrase → List Comparison
  | .links _ left => left.comparisons
  | _ => []

/-- **A phrase of proper tokens adds comparisons that can be written** to those before it. -/
theorem printable_of_derives {p : Phrase} {n k : Nat} {ts us : List Token} {e : Expr}
    (h : Derives p n k ts e us) (hts : ∀ t ∈ ts, t.Proper) :
    ∀ c ∈ e.comparisons, (∀ l ∈ c.value.literals, l.value.isFloat = false) →
      c ∈ p.given ∨ c.Printable := by
  have hgiven : ∀ op : Connective, (Phrase.operandOf op).given = [] := fun op => by cases op <;> rfl
  induction h with
  | comparison h =>
    intro c hc hfloat
    obtain rfl := List.mem_singleton.mp hc
    exact Or.inr (printable_of_comparisonAt h hts hfloat)
  | not _ _ ih => exact ih (List.forall_mem_cons.mp hts).2
  | group _ _ _ ih => exact ih (List.forall_mem_cons.mp hts).2
  | chain h _ ih ihs =>
    intro c hc hfloat
    refine Or.inr ?_
    -- what is given to the links is the first operand of the chain
    rcases ihs (fun t ht => hts t (h.suffix.subset ht)) c hc hfloat with hleft | hprintable
    · simpa [hgiven] using ih hts c hleft hfloat
    · exact hprintable
  | done => exact fun c hc _ => Or.inl hc
  | @link m n j k op t ts us vs a b e ht h _ ih ihs =>
    obtain ⟨-, hts⟩ := List.forall_mem_cons.mp hts
    intro c hc hfloat
    rcases ihs (fun t ht => hts t (h.suffix.subset ht)) c hc hfloat with hleft | hprintable
    · rcases List.mem_append.mp (show c ∈ a.comparisons ++ b.comparisons from hleft) with hc | hc
      · exact Or.inl hc
      · exact Or.inr (by simpa [hgiven] using ih hts c hc hfloat)
    · exact Or.inr hprintable

/-- **An expression that was read can be written**, unless it has a number that is no integer. -/
theorem printable_of_parse {q : String} {e : Expr} (h : parse q = .ok e) (hfloat : e.NoFloat) :
    e.Printable := by
  obtain ⟨ts, n, -, ⟨stop, -, hd⟩, -, -, hproper⟩ := exists_query_of_parse h
  intro c hc
  exact (printable_of_derives hd hproper c hc (hfloat c hc)).resolve_left List.not_mem_nil

/-! ## The round trip -/

/-- **The written form of an expression is a query** of its levels and its comparisons, for a tree
that is the expression again but for offsets. -/
theorem Expr.tokenize_render {e : Expr} (h : e.Printable) :
    ∃ (ts : List Token) (e' : Expr), tokenize e.render = ts.map .ok ∧ EndsOnce ts
      ∧ (∀ t ∈ ts, t.Legal) ∧ e'.bare = e.bare ∧ IsQuery e.levels e.comparisons.length ts e' := by
  obtain ⟨ts, stop, htokens, hcontents⟩ := (Expr.spells h).tokens stops_nil 0
  obtain ⟨hlegal, e', hbare, hd⟩ := Expr.reads h hcontents
  refine ⟨ts ++ [Token.endOfInput stop], e', htokens, (endsOnce_of_tokensFrom htokens).1, ?_,
    hbare, ?_⟩
  · refine List.forall_mem_append.mpr ⟨hlegal, List.forall_mem_singleton.mpr ?_⟩
    exact Token.legal_of_kind rfl rfl
  · exact ⟨_, rfl, derives_alone (hd _)⟩

/-- **Printing and reading back** gives the expression again, but for its offsets, as long as it
has at most 64 levels; the written form of a deeper expression is refused. -/
theorem parse_render {q : String} {e : Expr} (h : parse q = .ok e) (hfloat : e.NoFloat) :
    (e.levels ≤ 64 → ∃ e', parse e.render = .ok e' ∧ e'.bare = e.bare)
      ∧ (64 < e.levels → ∃ err, parse e.render = .error (.parse err)) := by
  obtain ⟨ts, e', htokens, hends, hlegal, hbare, hquery⟩ :=
    Expr.tokenize_render (printable_of_parse h hfloat)
  have hparse : parse e.render = parseTokens (ts.map .ok) := by
    unfold parse
    rw [htokens]
  rw [hparse]
  constructor
  · intro hlevels
    obtain ⟨-, -, -, -, -, hterms, -⟩ := exists_query_of_parse h
    refine ⟨e', (parseTokens_eq_ok_iff hends).mpr ⟨⟨_, _, hquery, hlevels, hterms⟩, hlegal⟩, hbare⟩
  · intro hlevels
    cases hread : parseTokens (ts.map .ok) with
    | ok x =>
      obtain ⟨⟨n, k, hquery', hn, -⟩, -⟩ := (parseTokens_eq_ok_iff hends).mp hread
      obtain ⟨rfl, -, -⟩ := hquery.unique hquery'
      exact absurd hn (Nat.not_le.mpr hlevels)
    | error err =>
      obtain ⟨e, rfl⟩ := Parser.exists_parse_of_run_eq_error hread
      exact ⟨e, rfl⟩

/-- A text whose tokens are read can be read. -/
theorem exists_parse_of_tokensFrom {cs : List Char} {levels : Nat}
    (h : (match parseTokens (tokensFrom 0 cs) with
      | .ok e => decide (e.NoFloat ∧ e.levels = levels)
      | .error _ => false) = true) :
    ∃ e, parse (String.ofList cs) = .ok e ∧ e.NoFloat ∧ e.levels = levels := by
  have hparse : parse (String.ofList cs) = parseTokens (tokensFrom 0 cs) := by
    unfold parse tokenize
    rw [String.toList_ofList]
  rw [hparse]
  split at h
  · exact ⟨_, ‹_›, of_decide_eq_true h⟩
  · exact nomatch h

/-- A conjunction of 65 terms can be read back, and one of 66 terms cannot. -/
theorem parse_render_chain :
    let chain (n : Nat) : List Char :=
      "a=1".toList ++ (List.replicate n " and a=1".toList).flatten
    (∃ e e', parse (String.ofList (chain 64)) = .ok e ∧ parse e.render = .ok e'
      ∧ e'.bare = e.bare)
      ∧ ∃ e err, parse (String.ofList (chain 65)) = .ok e
        ∧ parse e.render = .error (.parse err) := by
  intro chain
  obtain ⟨e, he, hfloat, hlevels⟩ : ∃ e, parse (String.ofList (chain 64)) = .ok e ∧ e.NoFloat
      ∧ e.levels = 64 := exists_parse_of_tokensFrom (by decide +kernel)
  obtain ⟨x, hx, hfloatx, hlevelsx⟩ : ∃ x, parse (String.ofList (chain 65)) = .ok x ∧ x.NoFloat
      ∧ x.levels = 65 := exists_parse_of_tokensFrom (by decide +kernel)
  obtain ⟨e', he', hbare⟩ := (parse_render he hfloat).1 (Nat.le_of_eq hlevels)
  obtain ⟨err, herr⟩ := (parse_render hx hfloatx).2 (hlevelsx ▸ Nat.lt_succ_self 64)
  exact ⟨⟨e, e', he, he', hbare⟩, x, err, hx, herr⟩

end RecordQuery
