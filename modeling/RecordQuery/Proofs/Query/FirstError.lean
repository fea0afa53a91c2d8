import Mathlib.Algebra.GroupWithZero.Nat
import RecordQuery.Proofs.Query.Lexemes
import RecordQuery.Proofs.Query.Recognition

/-!
# The first token that no query goes on with

An error in the order of tokens lies at one of them, and it is the first one that makes a query
impossible: the tokens before it begin some query, and the tokens up to it begin none
(`parse_error_at_first`).

Two facts about the machine give this. It is deterministic, so once it refuses a token, whatever
comes later is not read. And it has no dead ends: **every state is completed by some tokens**
(`completable`), because the limits are looked at where a level or a comparison is opened and
never later. A comparison that has begun is ended with a null value, a list with its bracket, and
then every open parenthesis is closed.

The place of an error is the offset of the token, but for a name with an empty segment, where it
is the place of that segment. A name that ends with a point has an empty segment behind it, and
the error then lies directly behind the token (`parse_error_behind_name`).
-/

namespace RecordQuery

/-! ## Empty segments -/

/-- **Where the first empty segment stands**: behind the segments before it and their points. -/
theorem emptySegment?_eq_some_iff {offset place : Nat} {segments : List (List Char)} :
    emptySegment? offset segments = some place
      ↔ ∃ before after, segments = before ++ [] :: after ∧ [] ∉ before
        ∧ place = offset + (before.map fun s => s.length + 1).sum := by
  induction segments generalizing offset with
  | nil => simp [emptySegment?]
  | cons segment rest ih =>
    cases segment with
    | nil =>
      unfold emptySegment?
      rw [Option.some.injEq]
      constructor
      · rintro rfl
        exact ⟨[], rest, rfl, List.not_mem_nil, rfl⟩
      · rintro ⟨before, after, hcons, hbefore, rfl⟩
        rcases List.cons_eq_append_iff.mp hcons with ⟨rfl, -⟩ | ⟨before, rfl, -⟩
        · rfl
        · exact absurd List.mem_cons_self hbefore
    | cons c cs =>
      unfold emptySegment?
      rw [ih]
      constructor
      · rintro ⟨before, after, rfl, hbefore, rfl⟩
        refine ⟨(c :: cs) :: before, after, rfl, by simpa using hbefore, ?_⟩
        rw [List.map_cons, List.sum_cons]
        omega
      · rintro ⟨before, after, hcons, hbefore, rfl⟩
        rcases List.cons_eq_append_iff.mp hcons with ⟨-, hnil⟩ | ⟨before, rfl, rfl⟩
        · exact absurd hnil (by simp)
        · refine ⟨before, after, rfl, fun h => hbefore (List.mem_cons_of_mem _ h), ?_⟩
          rw [List.map_cons, List.sum_cons]
          omega

/-- **How long the text of a path is.** -/
theorem length_dotted {names : List String} (hne : names ≠ []) :
    (dotted names).length + 1 = (names.map fun n => n.length + 1).sum := by
  induction names with
  | nil => exact absurd rfl hne
  | cons n names ih =>
    cases names with
    | nil => simp [dotted]
    | cons m names =>
      have hcons : m :: names ≠ [] := List.cons_ne_nil m names
      have htext : dotted (n :: m :: names) = n ++ "." ++ dotted (m :: names) := by
        unfold dotted
        rw [← List.singleton_append,
          String.intercalate_append_of_ne_nil (List.cons_ne_nil n []) hcons,
          String.intercalate_singleton]
      rw [htext, List.map_cons, List.sum_cons, ← ih hcons]
      simp only [String.length_append]
      show n.length + 1 + _ + 1 = _
      omega

/-- **Whether the first empty segment of a name stands at an offset.** -/
def Token.EmptyAt (t : Token) (place : Nat) : Prop :=
  t.kind = .name ∧ ∃ before after, t.segments = before ++ "" :: after ∧ "" ∉ before
    ∧ place = t.offset + (before.map fun n => n.length + 1).sum

/-- **A place inside a token**, or behind it when it ends with a point. -/
def Token.Spans (t : Token) (place : Nat) : Prop :=
  t.offset ≤ place ∧ (place < t.offset + t.text.length
    ∨ place = t.offset + t.text.length ∧ ∃ front, t.text = front ++ ".")

/-- **An empty segment stands inside its name** or behind the last point. -/
theorem Token.EmptyAt.spans {t : Token} {place : Nat} (h : t.EmptyAt place) :
    place = t.offset ∨ t.Spans place := by
  obtain ⟨-, before, after, hsegments, -, rfl⟩ := h
  have htext : t.text = dotted (before ++ "" :: after) := by
    rw [← hsegments, Token.segments, dotted_splitPoints]
  have hlength : t.text.length + 1
      = (before.map fun n => n.length + 1).sum + ((after.map fun n => n.length + 1).sum + 1) := by
    rw [htext, length_dotted (by simp), List.map_append, List.sum_append, List.map_cons,
      List.sum_cons]
    show _ + (0 + 1 + _) = _
    omega
  cases before with
  | nil => exact Or.inl rfl
  | cons n before =>
    refine Or.inr ⟨Nat.le_add_right _ _, ?_⟩
    cases after with
    | nil =>
      rw [List.map_nil, List.sum_nil] at hlength
      refine Or.inr ⟨by omega, dotted (n :: before), ?_⟩
      rw [htext, dotted_append_singleton (List.cons_ne_nil n before), String.append_empty]
    | cons m after =>
      have hafter : 0 < ((m :: after).map fun n => n.length + 1).sum := by
        rw [List.map_cons, List.sum_cons]
        omega
      exact Or.inl (by omega)

namespace Parser

/-! ## Refused tokens -/

namespace State

/-- **The machine goes over tokens** from one state to another. -/
inductive Reads : State → List Token → State → Prop
  | nil {s : State} : Reads s [] s
  | cons {s s' s'' : State} {t : Token} {ts : List Token} (h : s.step t = .next s')
      (hs : Reads s' ts s'') : Reads s (t :: ts) s''

/-- A run goes on after tokens from the state that they lead to. -/
theorem Reads.run_eq {s s' : State} {ts : List Token} (h : Reads s ts s') (last : Nat)
    (us : List (Except LexError Token)) :
    ∃ last', run s last (ts.map .ok ++ us) = run s' last' us := by
  induction h generalizing last with
  | nil => exact ⟨last, rfl⟩
  | @cons s s' s'' t ts h hs ih =>
    obtain ⟨last', ih⟩ := ih t.offset
    refine ⟨last', ?_⟩
    rw [List.map_cons, List.cons_append, run, h]
    exact ih

/-- The end of input is not among the tokens that the machine goes over. -/
theorem Reads.kind_ne {s s' : State} {ts : List Token} (h : Reads s ts s') :
    ∀ t ∈ ts, t.kind ≠ .endOfInput := by
  induction h with
  | nil => exact nofun
  | cons h _ ih => exact List.forall_mem_cons.mpr ⟨fun ht => step_endOfInput_ne_next ht h, ih⟩

/-- A value that a token holds is refused with its own error. -/
theorem eq_of_withValue_eq_refuse {α : Type} {value : Except ParseError α} {go : α → State}
    {taken : Bool} {err : ParseError} (h : withValue value go = .refuse taken err) :
    value = .error err := by
  cases value with
  | error e => exact congrArg _ (Outcome.refuse.inj h).2
  | ok a => exact nomatch h

/-- An error of a literal lies at the literal. -/
theorem offset_of_literal_eq_error {t : Token} {err : ParseError} (h : t.literal = .error err) :
    err.offset = t.offset := by
  unfold Token.literal at h
  split at h
  -- only numbers can be refused
  case h_1 | h_2 =>
    split at h
    · exact nomatch h
    · exact congrArg ParseError.offset (Except.error.inj h).symm
  all_goals exact nomatch h

/-- An error of a name lies at its first empty segment. -/
theorem emptyAt_of_path_eq_error {t : Token} (ht : t.kind = .name) {err : ParseError}
    (h : t.path = .error err) : t.EmptyAt err.offset := by
  unfold Token.path at h
  dsimp only at h
  split at h
  · rename_i place hplace
    obtain ⟨before, after, hsegments, hbefore, rfl⟩ := emptySegment?_eq_some_iff.mp hplace
    obtain rfl := Except.error.inj h
    refine ⟨ht, before.map String.ofList, after.map String.ofList, ?_, ?_, ?_⟩
    · rw [Token.segments, splitPoints, hsegments, List.map_append, List.map_cons]
    · rintro hmem
      obtain ⟨s, hs, hempty⟩ := List.mem_map.mp hmem
      obtain rfl : s = [] := by simpa using congrArg String.toList hempty
      exact hbefore hs
    · simp [Function.comp_def]
  · cases h

/-- The error of a token that does not fit lies at the token. -/
theorem offset_mismatch (s : State) (t : Token) : (s.mismatch t).offset = t.offset := by
  unfold mismatch
  split <;> rfl

/-- **The error of a refused token** lies at the token; or at the first empty segment of a name,
and then the next token is read first. -/
theorem taken_of_step_eq_refuse {s : State} {t : Token} {taken : Bool} {err : ParseError}
    (h : s.step t = .refuse taken err) :
    err.offset = t.offset ∨ taken = true ∧ t.EmptyAt err.offset := by
  have hmismatch : ∀ {b : Bool}, Outcome.refuse b (s.mismatch t) = .refuse taken err →
      err.offset = t.offset := by
    intro b h
    rw [← (Outcome.refuse.inj h).2, offset_mismatch]
  have hpath : ∀ {go : NamePath → State}, t.kind = .name → withValue t.path go = .refuse taken err →
      err.offset = t.offset ∨ taken = true ∧ t.EmptyAt err.offset := by
    intro go ht h
    have hvalue := eq_of_withValue_eq_refuse h
    rw [hvalue] at h
    exact Or.inr ⟨(Outcome.refuse.inj h).1.symm, emptyAt_of_path_eq_error ht hvalue⟩
  have hliteral : ∀ {go : Literal → State}, withValue t.literal go = .refuse taken err →
      err.offset = t.offset := fun h => offset_of_literal_eq_error (eq_of_withValue_eq_refuse h)
  -- only terms and operands have names; every other refusal is at the token
  unfold step at h
  split at h
  · unfold stepTerm at h
    split at h
    case h_3 ht => exact hpath ht h
    all_goals grind [deepen]
  · grind
  · grind
  · unfold stepValue at h
    split at h
    case h_3 ht => exact hpath ht h
    all_goals grind
  · unfold stepItem at h
    grind
  · unfold stepSeparator at h
    grind
  · unfold stepJoint at h
    grind [join, leave, conclude]

/-- The error of a refused token lies at the token, or at the first empty segment of a name. -/
theorem place_of_step_eq_refuse {s : State} {t : Token} {taken : Bool} {err : ParseError}
    (h : s.step t = .refuse taken err) : err.offset = t.offset ∨ t.EmptyAt err.offset :=
  (taken_of_step_eq_refuse h).imp_right And.right

end State

/-- **A run that fails refuses a token** of those it is given. The induction is on the tokens
before the end of input, which is read in no state. -/
theorem exists_refused_of_run {s : State} {last : Nat} {body : List Token} {stop : Token}
    {err : ParseError} (hstop : stop.kind = .endOfInput)
    (h : run s last ((body ++ [stop]).map .ok) = .error (.parse err)) :
    ∃ before t after s' taken, body ++ [stop] = before ++ t :: after ∧ s.Reads before s'
      ∧ s'.step t = .refuse taken err := by
  have hrefused : ∀ {s : State} {taken : Bool} {e : ParseError} {t : Token} {ts : List Token},
      s.step t = .refuse taken e → Except.error (refusal taken e (ts.map .ok)) =
        (.error (.parse err) : Except SyntaxError Expr) → s.step t = .refuse taken err := by
    intro s taken e t ts hstep herr
    obtain rfl : e = err := by
      have hparse : refusal taken e (ts.map .ok) = .parse e := by cases ts <;> cases taken <;> rfl
      exact SyntaxError.parse.inj (hparse.symm.trans (Except.error.inj herr))
    exact hstep
  induction body generalizing s last with
  | nil =>
    rw [List.nil_append, List.map_cons, run] at h
    split at h
    · cases h
    · exact absurd ‹_› (State.step_endOfInput_ne_next hstop)
    · exact ⟨[], stop, [], s, _, rfl, .nil, hrefused ‹_› h⟩
  | cons t body ih =>
    rw [List.cons_append, List.map_cons, run] at h
    split at h
    · cases h
    · rename_i s' hstep
      obtain ⟨before, u, after, s'', taken, hcut, hreads, hrefuse⟩ := ih h
      refine ⟨t :: before, u, after, s'', taken, ?_, .cons hstep hreads, hrefuse⟩
      rw [List.cons_append, hcut, List.cons_append]
    · exact ⟨[], t, body ++ [stop], s, _, rfl, .nil, hrefused ‹_› h⟩

/-- **Nothing is read after a refused token.** -/
theorem run_refused_ne_ok {s s' : State} {last : Nat} {before : List Token} {t : Token}
    {taken : Bool} {err : ParseError} (hreads : s.Reads before s')
    (h : s'.step t = .refuse taken err) (us : List (Except LexError Token)) (e : Expr) :
    run s last (before.map .ok ++ .ok t :: us) ≠ .ok e := by
  obtain ⟨last', hrun⟩ := hreads.run_eq last (.ok t :: us)
  rw [hrun, run, h]
  exact nofun

/-! ## No dead ends -/

namespace State

/-- **Whether some tokens complete a state** to a query. -/
def Completable (s : State) : Prop :=
  ∃ ts e, EndsOnce ts ∧ ∀ last, run s last (ts.map .ok) = .ok e

/-- A state is completable when one step from it leads to such a state. -/
theorem Completable.of_step {s s' : State} {t : Token} (h : s.step t = .next s')
    (hs : s'.Completable) :
    s.Completable := by
  obtain ⟨ts, e, ⟨body, stop, rfl, hstop, hbody⟩, hrun⟩ := hs
  have ht : t.kind ≠ .endOfInput := fun ht => step_endOfInput_ne_next ht h
  refine ⟨t :: (body ++ [stop]), e,
    ⟨t :: body, stop, rfl, hstop, List.forall_mem_cons.mpr ⟨ht, hbody⟩⟩, ?_⟩
  intro last
  rw [List.map_cons, run, h]
  exact hrun t.offset

/-- **A complete term is followed by the open parentheses and the end of input.** The induction is
on the groups that are open. -/
theorem completable_joint (x : Expr) (g : Group) (outer : List Group) (terms : Nat) :
    Completable ⟨.joint x, g, outer, terms⟩ := by
  induction outer generalizing x g with
  | nil =>
    refine ⟨[.endOfInput 0], g.close x, ⟨[], _, rfl, rfl, nofun⟩, fun last => ?_⟩
    rfl
  | cons h outer ih => exact .of_step (t := ⟨.rightParen, ")", 0⟩) rfl (ih _ _)

theorem completable_value (field : NamePath) (op : Operator) (g : Group) (outer : List Group)
    (terms : Nat) :
    Completable ⟨.value field op, g, outer, terms⟩ :=
  .of_step (t := ⟨.null, "null", 0⟩) rfl (completable_joint _ _ _ _)

theorem completable_operator (field : NamePath) (g : Group) (outer : List Group) (terms : Nat) :
    Completable ⟨.operator field, g, outer, terms⟩ :=
  .of_step (t := ⟨.operator .equal, "=", 0⟩) rfl (completable_value _ _ _ _ _)

/-- The bracket that ends a list. -/
def closer (round : Bool) : Token :=
  if round then ⟨.rightParen, ")", 0⟩ else ⟨.rightBracket, "]", 0⟩

/-- The bracket of a list has the kind that ends it. -/
theorem kind_closer (l : OpenList) : (closer l.round).kind = l.closing := by
  unfold closer OpenList.closing
  cases l.round <;> rfl

/-- **Every state is completable.** -/
theorem completable (s : State) : s.Completable := by
  obtain ⟨stage, g, outer, terms⟩ := s
  cases stage with
  | term => exact .of_step (t := ⟨.name, "a", 0⟩) rfl (completable_operator _ _ _ _)
  | operator field => exact completable_operator _ _ _ _
  | negated field =>
    exact .of_step (t := ⟨.operator .isIn, "in", 0⟩) rfl (completable_value _ _ _ _ _)
  | value field op => exact completable_value _ _ _ _ _
  | item l =>
    have hstep :
        step ⟨.item l, g, outer, terms⟩ (closer l.round) = .next (compare _ l.field l.op _) :=
      if_pos (kind_closer l)
    exact .of_step hstep (completable_joint _ _ _ _)
  | separator l =>
    have hcomma : (closer l.round).kind ≠ .comma := by
      unfold closer
      cases l.round <;> decide
    have hstep : step ⟨.separator l, g, outer, terms⟩ (closer l.round)
        = .next (compare _ l.field l.op _) :=
      (if_neg hcomma).trans (if_pos (kind_closer l))
    exact .of_step hstep (completable_joint _ _ _ _)
  | joint x => exact completable_joint _ _ _ _

end State
end Parser

/-! ## The place of an error -/

/-- **An error lies at the first token that no query goes on with.** If the tokens of a query are
well formed and the query is refused, the error lies at one of them, or at the first empty segment
of a name, which is inside the name or behind its last point. The tokens before it begin a query,
and no tokens that begin with them and with it are one. -/
theorem parse_error_at_first {q : String} {ts : List Token} {err : ParseError}
    (hts : tokenize q = ts.map .ok) (h : parse q = .error (.parse err)) :
    ∃ before t after, ts = before ++ t :: after
      ∧ (err.offset = t.offset ∨ t.EmptyAt err.offset ∧ t.Spans err.offset)
      ∧ (∃ us e, EndsOnce (before ++ us) ∧ parseTokens ((before ++ us).map .ok) = .ok e)
      ∧ ∀ us e, parseTokens (before.map .ok ++ .ok t :: us) ≠ .ok e := by
  obtain ⟨body, stop, rfl, hstop, -⟩ : EndsOnce ts := (Lexer.endsOnce_of_tokensFrom hts).1
  rw [parse, hts] at h
  obtain ⟨before, t, after, s, taken, hcut, hreads, hrefuse⟩ := Parser.exists_refused_of_run hstop h
  refine ⟨before, t, after, hcut, ?_, ?_, Parser.run_refused_ne_ok hreads hrefuse⟩
  · rcases Parser.State.place_of_step_eq_refuse hrefuse with hplace | hempty
    · exact Or.inl hplace
    · exact hempty.spans.imp_right fun hspans => ⟨hempty, hspans⟩
  · obtain ⟨us, e, ⟨ubody, ustop, rfl, hustop, hubody⟩, hrun⟩ := s.completable
    obtain ⟨last, hread⟩ := hreads.run_eq 0 ((ubody ++ [ustop]).map .ok)
    refine ⟨_, e, ⟨before ++ ubody, ustop, (List.append_assoc _ _ _).symm, hustop, ?_⟩, ?_⟩
    · exact List.forall_mem_append.mpr ⟨hreads.kind_ne, hubody⟩
    · rw [List.map_append, parseTokens, hread]
      exact hrun last

/-- In `a in [1 2]` the comma is missing, so the error lies at the second item. -/
theorem parse_error_missing_comma :
    let ts : List Token := [⟨.name, "a", 0⟩, ⟨.operator .isIn, "in", 2⟩, ⟨.leftBracket, "[", 5⟩,
      ⟨.int, "1", 6⟩, ⟨.int, "2", 8⟩, ⟨.rightBracket, "]", 9⟩, .endOfInput 10]
    tokenize "a in [1 2]" = ts.map .ok ∧ ∃ before t after, ts = before ++ t :: after ∧ t.offset = 8
      ∧ (∃ us e, EndsOnce (before ++ us) ∧ parseTokens ((before ++ us).map .ok) = .ok e)
      ∧ ∀ us e, parseTokens (before.map .ok ++ .ok t :: us) ≠ .ok e := by
  intro ts
  have hts : tokenize "a in [1 2]" = ts.map .ok := by decide +kernel
  have hparse :
      parse "a in [1 2]" = .error (.parse ⟨8, .expectedSeparator ⟨.int, "2", 8⟩ false⟩) := by
    decide +kernel
  obtain ⟨before, t, after, hcut, hplace, hbegins, hnone⟩ := parse_error_at_first hts hparse
  refine ⟨hts, before, t, after, hcut, ?_, hbegins, hnone⟩
  rcases hplace with hplace | ⟨⟨hname, front, rest, hsegments, -⟩, -⟩
  · exact hplace.symm
  · -- the only name has no empty segment
    have hnames : ∀ t ∈ ts, t.kind = .name → "" ∉ t.segments := by decide +kernel
    refine absurd ?_ (hnames t (by simp [hcut]) hname)
    simp [hsegments]

/-- The error of `author. = 1` lies behind the name and in front of the operator: at no
token and inside none. -/
theorem parse_error_behind_name :
    ∃ (ts : List Token) (err : ParseError), tokenize "author. = 1" = ts.map .ok
      ∧ parse "author. = 1" = .error (.parse err)
      ∧ ∀ t ∈ ts, err.offset ≠ t.offset
        ∧ ¬ (t.kind = .name ∧ t.offset ≤ err.offset ∧ err.offset < t.offset + t.text.length) := by
  refine ⟨[⟨.name, "author.", 0⟩, ⟨.operator .equal, "=", 8⟩, ⟨.int, "1", 10⟩, .endOfInput 11],
    ⟨7, .emptySegment "author."⟩, ?_, ?_, ?_⟩ <;> decide +kernel

end RecordQuery
