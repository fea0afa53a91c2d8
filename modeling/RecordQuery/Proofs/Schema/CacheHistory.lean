import Mathlib.Data.List.Nodup
import Mathlib.Data.Set.Card
import RecordQuery.Proofs.Schema.Resolution
import RecordQuery.Schema.Cache

/-!
# Caches and their histories

A cache answers by what it holds, and what it holds comes from the calls before. Here every answer
is said in terms of these calls alone (`run_follows_history`): a get gives the schema that
building would give; it gives out the schema of the last successful get for the same root and
options if that one had an equal registry and nothing was dropped in between, and a new one
otherwise; and the schemas that are kept are counted by the roots and options that were asked for
with success and not dropped since.

The entries of a cache are for different roots and options, so a cache is known when it is known
which entries are in it. Every call is described by the entries that it leaves (`mem_getBy_iff`,
`mem_invalidate_iff`), every notion of the history by what one more call changes
(`lastGet_append_singleton`, `held_append_singleton`, `kept_append_singleton`), and the two agree
by induction on the calls (`mem_after_iff`).

A cache that compares fingerprints cannot tell apart two registries that share one. It behaves as
said for calls whose registries the fingerprint tells apart (`TellsApart`), so for all calls if
registries are compared themselves.
-/

namespace RecordQuery.Cache

variable {φ : Type} [DecidableEq φ] {fingerprint : Registry → φ} {c : Cache} {key : Key}
    {r : Registry}
  {e : Entry}

/-! ## One call -/

theorem isFor_eq_true_iff {root : String} {options : Options} :
    e.isFor root options = true ↔ e.key = (root, options) :=
  decide_eq_true_iff

/-- **The entry for a root and options** is the one that is in the cache. -/
theorem find?_eq_some_iff {root : String} {options : Options} :
    c.find? root options = some e ↔ e ∈ c.entries ∧ e.key = (root, options) := by
  unfold find?
  constructor
  · intro h
    exact ⟨List.mem_of_find?_eq_some h, isFor_eq_true_iff.mp (List.find?_some h :)⟩
  · rintro ⟨hmem, hkey⟩
    cases hfind : c.entries.find? (·.isFor root options) with
    | none => exact absurd (isFor_eq_true_iff.mpr hkey) (List.find?_eq_none.mp hfind e hmem)
    | some e' =>
      have hkey' : e'.key = (root, options) := isFor_eq_true_iff.mp (List.find?_some hfind :)
      have hmem' : e' ∈ c.entries := List.mem_of_find?_eq_some hfind
      rw [List.inj_on_of_nodup_map c.distinct hmem' hmem (hkey'.trans hkey.symm)]

theorem mem_filter_iff {test : Entry → Bool} :
    e ∈ (c.filter test).entries ↔ e ∈ c.entries ∧ test e = true :=
  List.mem_filter

/-- A schema that is kept takes the place of one for the same root and options. -/
theorem mem_keep_iff {s : Schema} :
    e ∈ (c.keep s).2.entries ↔ e = (c.keep s).1 ∨ e ∈ c.entries ∧ e.key ≠ (s.root, s.options) := by
  show e ∈ (c.keep s).1 :: (c.filter fun e => !e.isFor s.root s.options).entries ↔ _
  rw [List.mem_cons, mem_filter_iff, Bool.not_eq_true', ← Bool.not_eq_true, isFor_eq_true_iff]

theorem mem_invalidate_iff {root : String} :
    e ∈ (c.invalidate root).2.entries ↔ e ∈ c.entries ∧ e.key.1 ≠ root := by
  unfold invalidate
  simp only [mem_filter_iff, decide_eq_true_iff, Entry.key]

/-- **What a get does**: it gives out the entry for a registry with the same fingerprint, or fails
to build a schema, or builds one and keeps it. -/
inductive Got (fingerprint : Registry → φ) (c : Cache) (r : Registry) (key : Key) :
    Except SchemaError Entry × Cache → Prop
  | hit {e : Entry} (hmem : e ∈ c.entries) (hkey : e.key = key)
      (hsame : fingerprint e.schema.registry = fingerprint r) : Got fingerprint c r key (.ok e, c)
  | failed {err : SchemaError} (hbuild : Schema.build r key.1 key.2 = .error err) :
      Got fingerprint c r key (.error err, c)
  | built {s : Schema} (hbuild : Schema.build r key.1 key.2 = .ok s)
      (hother : ∀ e ∈ c.entries, e.key = key → fingerprint e.schema.registry ≠ fingerprint r) :
      Got fingerprint c r key (.ok (c.keep s).1, (c.keep s).2)

omit [DecidableEq φ] in
theorem got_rebuild
    (hother : ∀ e ∈ c.entries, e.key = key → fingerprint e.schema.registry ≠ fingerprint r) :
    Got fingerprint c r key (c.rebuild r key.1 key.2) := by
  unfold rebuild
  cases hbuild : Schema.build r key.1 key.2 with
  | error err => exact .failed hbuild
  | ok s => exact .built hbuild hother

theorem got_getBy (fingerprint : Registry → φ) (c : Cache) (r : Registry) (key : Key) :
    Got fingerprint c r key (c.getBy fingerprint r key.1 key.2) := by
  unfold getBy
  cases hfind : c.find? key.1 key.2 with
  | none =>
    refine got_rebuild fun e hmem hkey => ?_
    exact absurd (find?_eq_some_iff.mpr ⟨hmem, hkey⟩) (by simp [hfind])
  | some e =>
    obtain ⟨hmem, hkey⟩ := find?_eq_some_iff.mp hfind
    show Got fingerprint c r key (if fingerprint e.schema.registry = fingerprint r then _ else _)
    split
    · exact .hit hmem hkey ‹_›
    · rename_i hother
      refine got_rebuild fun e' hmem' hkey' => ?_
      rwa [List.inj_on_of_nodup_map c.distinct hmem' hmem (hkey'.trans hkey.symm)]

/-- **A get leaves the entry that it gives out**, and every other one but for what a new
schema takes the place of. -/
theorem mem_getBy_iff :
    e ∈ (c.getBy fingerprint r key.1 key.2).2.entries
      ↔ (c.getBy fingerprint r key.1 key.2).1 = .ok e
        ∨ e ∈ c.entries
          ∧ (e.key = key → ∃ err, (c.getBy fingerprint r key.1 key.2).1 = .error err) := by
  have hgot := got_getBy fingerprint c r key
  generalize c.getBy fingerprint r key.1 key.2 = result at hgot ⊢
  cases hgot with
  | @hit e' hmem hkey hsame =>
    simp only [Except.ok.injEq, reduceCtorEq, exists_false, imp_false]
    constructor
    · intro he
      by_cases hkey' : e.key = key
      · exact Or.inl (List.inj_on_of_nodup_map c.distinct hmem he (hkey.trans hkey'.symm))
      · exact Or.inr ⟨he, hkey'⟩
    · rintro (rfl | ⟨he, -⟩)
      · exact hmem
      · exact he
  | failed hbuild => simp
  | built hbuild hother =>
    obtain ⟨-, hroot, hoptions⟩ := Schema.build_eq_ok_iff.mp hbuild
    simp only [mem_keep_iff, hroot, hoptions, Except.ok.injEq, reduceCtorEq, exists_false,
      imp_false, ne_eq, eq_comm (a := e)]

/-! ## Histories -/

/-- **A call of a cache.** -/
inductive Call where
  /-- The schema for a registry, a root and options is asked for. -/
  | get (r : Registry) (key : Key)
  /-- The schemas of a root are dropped. -/
  | invalidate (root : String)
  /-- Every schema is dropped. -/
  | clear

/-- The cache after a call. -/
def step (fingerprint : Registry → φ) (c : Cache) : Call → Cache
  | .get r key => (c.getBy fingerprint r key.1 key.2).2
  | .invalidate root => (c.invalidate root).2
  | .clear => c.clear

/-- **The cache after calls**, which is empty at first. -/
def after (fingerprint : Registry → φ) (calls : List Call) : Cache :=
  calls.foldl (step fingerprint) .empty

/-- **What a get after calls answers.** -/
def answer (fingerprint : Registry → φ) (calls : List Call) (r : Registry) (key : Key) :
    Except SchemaError Entry :=
  ((after fingerprint calls).getBy fingerprint r key.1 key.2).1

/-- **The fingerprint tells the registries of calls apart.** -/
def TellsApart (fingerprint : Registry → φ) (calls : List Call) : Prop :=
  Set.InjOn fingerprint {r | ∃ key, Call.get r key ∈ calls}

/-- A call asks for a schema that can be built. -/
def Call.Gets (key : Key) (call : Call) : Prop :=
  ∃ r s, call = .get r key ∧ Schema.build r key.1 key.2 = .ok s

/-- A call drops what is kept for a root and options. -/
def Call.Drops (key : Key) (call : Call) : Prop := call = .invalidate key.1 ∨ call = .clear

/-- **The last successful get for a root and options**: its registry, what it answered and the
calls since. -/
def LastGet (fingerprint : Registry → φ) (calls : List Call) (key : Key) (r : Registry) (e : Entry)
    (since : List Call) : Prop :=
  ∃ earlier, calls = earlier ++ .get r key :: since ∧ answer fingerprint earlier r key = .ok e
    ∧ ∀ call ∈ since, ¬ call.Gets key

/-- **The last successful get, if nothing has dropped it since.** -/
def Held (fingerprint : Registry → φ) (calls : List Call) (key : Key) (r : Registry) (e : Entry) :
    Prop :=
  ∃ since, LastGet fingerprint calls key r e since ∧ ∀ call ∈ since, ¬ call.Drops key

/-- **A root and options are kept**: they were asked for with success and not dropped since. -/
def Kept (calls : List Call) (key : Key) : Prop :=
  ∃ earlier call since, calls = earlier ++ call :: since ∧ call.Gets key
    ∧ ∀ call ∈ since, ¬ call.Drops key

/-- **An entry was given out** by a get among the calls. -/
def Given (fingerprint : Registry → φ) (calls : List Call) (e : Entry) : Prop :=
  ∃ earlier r key since,
    calls = earlier ++ .get r key :: since ∧ answer fingerprint earlier r key = .ok e

variable {calls : List Call} {call : Call}

@[simp] theorem after_append_singleton :
    after fingerprint (calls ++ [call]) = step fingerprint (after fingerprint calls) call := by
  simp [after]

omit [DecidableEq φ] in
theorem TellsApart.of_append {rest : List Call} (h : TellsApart fingerprint (calls ++ rest)) :
    TellsApart fingerprint calls :=
  h.mono fun _ hr => hr.imp fun _ hget => List.mem_append_left rest hget

/-! ### One more call -/

/-- A list with one more item is cut at that item or before. -/
theorem append_singleton_eq_append_cons_iff {α : Type} {xs before since : List α} {x y : α} :
    xs ++ [x] = before ++ y :: since
      ↔ since = [] ∧ x = y ∧ xs = before
        ∨ ∃ since', since = since' ++ [x] ∧ xs = before ++ y :: since' := by
  rcases List.eq_nil_or_concat' since with rfl | ⟨since', z, rfl⟩
  · simp [and_comm]
  · have hassoc : before ++ y :: (since' ++ [z]) = (before ++ y :: since') ++ [z] := by simp
    constructor
    · intro h
      obtain ⟨hxs, hx⟩ := List.append_inj' (h.trans hassoc) rfl
      exact Or.inr ⟨since', by rw [hx], hxs⟩
    · rintro (⟨h, -⟩ | ⟨since'', h, rfl⟩)
      · simp at h
      · obtain ⟨rfl, hz⟩ := List.append_inj' h rfl
        rw [hassoc, hz]

theorem not_lastGet_nil {since : List Call} : ¬ LastGet fingerprint [] key r e since := by
  rintro ⟨earlier, heq, -⟩
  simp at heq

/-- **The last get after one more call** is that call, if it is a successful get for the root and
options, and else the last get before. -/
theorem lastGet_append_singleton {since : List Call} :
    LastGet fingerprint (calls ++ [call]) key r e since
      ↔ since = [] ∧ call = .get r key ∧ answer fingerprint calls r key = .ok e
        ∨ ∃ since', since = since' ++ [call] ∧ LastGet fingerprint calls key r e since'
          ∧ ¬ call.Gets key := by
  unfold LastGet
  simp only [append_singleton_eq_append_cons_iff]
  constructor
  · rintro ⟨earlier, ⟨rfl, rfl, rfl⟩ | ⟨since', rfl, rfl⟩, hanswer, hsince⟩
    · exact Or.inl ⟨rfl, rfl, hanswer⟩
    · obtain ⟨hsince, hcall⟩ := List.forall_mem_append.mp hsince
      exact Or.inr ⟨since', rfl, ⟨earlier, rfl, hanswer, hsince⟩, hcall call List.mem_cons_self⟩
  · rintro (⟨rfl, rfl, hanswer⟩ | ⟨since', rfl, ⟨earlier, rfl, hanswer, hsince⟩, hcall⟩)
    · exact ⟨calls, Or.inl ⟨rfl, rfl, rfl⟩, hanswer, nofun⟩
    · exact ⟨earlier, Or.inr ⟨since', rfl, rfl⟩, hanswer,
        List.forall_mem_append.mpr ⟨hsince, List.forall_mem_singleton.mpr hcall⟩⟩

/-- **What is held after one more call** is what that call answers, or else what was held before
and is neither got anew nor dropped. -/
theorem held_append_singleton :
    Held fingerprint (calls ++ [call]) key r e
      ↔ call = .get r key ∧ answer fingerprint calls r key = .ok e
        ∨ Held fingerprint calls key r e ∧ ¬ call.Gets key ∧ ¬ call.Drops key := by
  unfold Held
  simp only [lastGet_append_singleton]
  constructor
  · rintro ⟨since, ⟨rfl, hcall, hanswer⟩ | ⟨since', rfl, hlast, hgets⟩, hsince⟩
    · exact Or.inl ⟨hcall, hanswer⟩
    · obtain ⟨hsince, hdrops⟩ := List.forall_mem_append.mp hsince
      exact Or.inr ⟨⟨since', hlast, hsince⟩, hgets, hdrops call List.mem_cons_self⟩
  · rintro (⟨hcall, hanswer⟩ | ⟨⟨since, hlast, hsince⟩, hgets, hdrops⟩)
    · exact ⟨[], Or.inl ⟨rfl, hcall, hanswer⟩, nofun⟩
    · exact ⟨since ++ [call], Or.inr ⟨since, rfl, hlast, hgets⟩,
        List.forall_mem_append.mpr ⟨hsince, List.forall_mem_singleton.mpr hdrops⟩⟩

/-- What is kept after one more call is what it gets, and what was kept before and is not
dropped. -/
theorem kept_append_singleton :
    Kept (calls ++ [call]) key ↔ call.Gets key ∨ Kept calls key ∧ ¬ call.Drops key := by
  unfold Kept
  simp only [append_singleton_eq_append_cons_iff]
  constructor
  · rintro ⟨earlier, g, since, ⟨rfl, rfl, rfl⟩ | ⟨since', rfl, rfl⟩, hgets, hsince⟩
    · exact Or.inl hgets
    · obtain ⟨hsince, hdrops⟩ := List.forall_mem_append.mp hsince
      exact Or.inr ⟨⟨earlier, g, since', rfl, hgets, hsince⟩, hdrops call List.mem_cons_self⟩
  · rintro (hgets | ⟨⟨earlier, g, since, rfl, hgets, hsince⟩, hdrops⟩)
    · exact ⟨calls, call, [], Or.inl ⟨rfl, rfl, rfl⟩, hgets, nofun⟩
    · exact ⟨earlier, g, since ++ [call], Or.inr ⟨since, rfl, rfl⟩, hgets,
        List.forall_mem_append.mpr ⟨hsince, List.forall_mem_singleton.mpr hdrops⟩⟩

/-! ## What a cache holds -/

/-- An entry comes from a get for its own registry, root and options. -/
theorem get_of_mem (h : e ∈ (after fingerprint calls).entries) :
    Call.get e.schema.registry e.key ∈ calls := by
  induction calls using List.reverseRecOn with
  | nil => exact nomatch h
  | append_singleton calls call ih =>
    rw [after_append_singleton] at h
    have hold : e ∈ (after fingerprint calls).entries →
        Call.get e.schema.registry e.key ∈ calls ++ [call] :=
      fun he => List.mem_append_left _ (ih he)
    cases call with
    | get r key =>
      unfold step at h
      dsimp only at h
      have hgot := got_getBy fingerprint (after fingerprint calls) r key
      generalize (after fingerprint calls).getBy fingerprint r key.1 key.2 = result at hgot h
      cases hgot with
      | hit _ _ _ => exact hold h
      | failed _ => exact hold h
      | built hbuild _ =>
        rcases mem_keep_iff.mp h with rfl | ⟨he, -⟩
        · obtain ⟨root, options⟩ := key
          obtain ⟨rfl, rfl, rfl⟩ := Schema.build_eq_ok_iff.mp hbuild
          exact List.mem_append_right _ List.mem_cons_self
        · exact hold he
    | invalidate root => exact hold (mem_invalidate_iff.mp h).1
    | clear => exact nomatch h

/-- **A get gives what building gives.** -/
theorem map_answer (h : TellsApart fingerprint (calls ++ [.get r key])) :
    (answer fingerprint calls r key).map Entry.schema = Schema.build r key.1 key.2 := by
  unfold answer
  have hgot := got_getBy fingerprint (after fingerprint calls) r key
  generalize (after fingerprint calls).getBy fingerprint r key.1 key.2 = result at hgot
  cases hgot with
  | @hit e hmem hkey hsame =>
    have hused : Call.get e.schema.registry e.key ∈ calls ++ [.get r key] :=
      List.mem_append_left _ (get_of_mem hmem)
    have hr : e.schema.registry = r := h ⟨_, hused⟩ ⟨key, by simp⟩ hsame
    have hbuild : Schema.build r key.1 key.2 = .ok e.schema :=
      Schema.build_eq_ok_iff.mpr ⟨hr, congrArg Prod.fst hkey, congrArg Prod.snd hkey⟩
    rw [hbuild]
    rfl
  | failed hbuild => rw [hbuild]; rfl
  | built hbuild _ => rw [hbuild]; rfl

theorem build_of_answer (h : TellsApart fingerprint (calls ++ [.get r key]))
    (hanswer : answer fingerprint calls r key = .ok e) :
    Schema.build r key.1 key.2 = .ok e.schema := by
  rw [← map_answer h, hanswer]
  rfl

/-- What a get gives out is for what it asks for. -/
theorem asked_of_answer (h : TellsApart fingerprint (calls ++ [.get r key]))
    (hanswer : answer fingerprint calls r key = .ok e) : e.schema.registry = r ∧ e.key = key := by
  obtain ⟨hr, hroot, hoptions⟩ := Schema.build_eq_ok_iff.mp (build_of_answer h hanswer)
  exact ⟨hr, Prod.ext hroot hoptions⟩

/-- **A get is successful exactly if it answers a schema.** -/
theorem gets_get_iff {key' : Key} (h : TellsApart fingerprint (calls ++ [.get r key])) :
    (Call.get r key).Gets key' ↔ key = key' ∧ ∃ e, answer fingerprint calls r key = .ok e := by
  have hmap := map_answer h
  unfold Call.Gets
  constructor
  · rintro ⟨r', s, heq, hbuild⟩
    obtain ⟨rfl, rfl⟩ := Call.get.inj heq
    refine ⟨rfl, ?_⟩
    rw [hbuild] at hmap
    cases hanswer : answer fingerprint calls r key with
    | ok e => exact ⟨e, rfl⟩
    | error err => rw [hanswer] at hmap; exact nomatch hmap
  · rintro ⟨rfl, e, hanswer⟩
    exact ⟨r, e.schema, rfl, build_of_answer h hanswer⟩

/-- **The entries of a cache are what its history holds.** -/
theorem mem_after_iff (h : TellsApart fingerprint calls) :
    e ∈ (after fingerprint calls).entries ↔ Held fingerprint calls e.key e.schema.registry e := by
  induction calls using List.reverseRecOn with
  | nil =>
    refine ⟨fun he => absurd he List.not_mem_nil, ?_⟩
    rintro ⟨since, hlast, -⟩
    exact absurd hlast not_lastGet_nil
  | append_singleton calls call ih =>
    rw [held_append_singleton, ← ih h.of_append, after_append_singleton]
    cases call with
    | get r key =>
      show e ∈ ((after fingerprint calls).getBy fingerprint r key.1 key.2).2.entries ↔ _
      rw [mem_getBy_iff, gets_get_iff h]
      show answer fingerprint calls r key = .ok e
        ∨ e ∈ _ ∧ (e.key = key → ∃ err, answer fingerprint calls r key = .error err) ↔ _
      refine or_congr ⟨fun hanswer => ?_, ?_⟩ (and_congr_right fun _ => ?_)
      · obtain ⟨hr, hkey⟩ := asked_of_answer h hanswer
        rw [hr, hkey]
        exact ⟨rfl, hanswer⟩
      · rintro ⟨heq, hanswer⟩
        obtain ⟨rfl, rfl⟩ := Call.get.inj heq
        exact hanswer
      · cases answer fingerprint calls r key <;> simp [Call.Drops, eq_comm]
    | invalidate root =>
      show e ∈ ((after fingerprint calls).invalidate root).2.entries ↔ _
      rw [mem_invalidate_iff]
      simp [Call.Gets, Call.Drops, eq_comm]
    | clear =>
      refine ⟨fun he => absurd he List.not_mem_nil, ?_⟩
      rintro (⟨heq, -⟩ | ⟨-, -, hdrops⟩)
      · exact nomatch heq
      · exact absurd (Or.inr rfl) hdrops

/-- The entries after one more call are what it answers and what was there and is neither
got anew nor dropped. -/
theorem mem_after_append_singleton (h : TellsApart fingerprint (calls ++ [call])) :
    e ∈ (after fingerprint (calls ++ [call])).entries
      ↔ call = .get e.schema.registry e.key
        ∧ answer fingerprint calls e.schema.registry e.key = .ok e
        ∨ e ∈ (after fingerprint calls).entries ∧ ¬ call.Gets e.key ∧ ¬ call.Drops e.key := by
  rw [mem_after_iff h, held_append_singleton, mem_after_iff h.of_append]

/-- **The roots and options that a cache has an entry for are those that are kept.** -/
theorem exists_mem_after_iff (h : TellsApart fingerprint calls) :
    (∃ e ∈ (after fingerprint calls).entries, e.key = key) ↔ Kept calls key := by
  induction calls using List.reverseRecOn with
  | nil =>
    constructor
    · rintro ⟨e, he, -⟩
      exact absurd he List.not_mem_nil
    · rintro ⟨earlier, call, since, heq, -⟩
      simp at heq
  | append_singleton calls call ih =>
    rw [kept_append_singleton, ← ih h.of_append]
    by_cases hgets : call.Gets key
    · simp only [hgets, true_or, iff_true]
      obtain ⟨r, s, rfl, hbuild⟩ := hgets
      obtain ⟨-, e, hanswer⟩ := (gets_get_iff h).mp ⟨r, s, rfl, hbuild⟩
      obtain ⟨rfl, rfl⟩ := asked_of_answer h hanswer
      exact ⟨e, (mem_after_append_singleton h).mpr (Or.inl ⟨rfl, hanswer⟩), rfl⟩
    · simp only [hgets, false_or]
      constructor
      · rintro ⟨e, he, rfl⟩
        rcases (mem_after_append_singleton h).mp he with ⟨rfl, hanswer⟩ | ⟨he, -, hdrops⟩
        · exact absurd ((gets_get_iff h).mpr ⟨rfl, e, hanswer⟩) hgets
        · exact ⟨⟨e, he, rfl⟩, hdrops⟩
      · rintro ⟨⟨e, he, rfl⟩, hdrops⟩
        exact ⟨e, (mem_after_append_singleton h).mpr (Or.inr ⟨he, hgets, hdrops⟩), rfl⟩

/-- A cache has as many entries as roots and options. -/
theorem encard_keys (c : Cache) : {key | ∃ e ∈ c.entries, e.key = key}.encard = c.size := by
  have hset :
      {key | ∃ e ∈ c.entries, e.key = key} = ((c.entries.map Entry.key).toFinset : Set Key) := by
    ext key
    simp
  rw [hset, Set.encard_coe_eq_coe_finsetCard, List.toFinset_card_of_nodup c.distinct,
    List.length_map]
  rfl

/-- **As many schemas are kept as roots and options.** -/
theorem size_after (h : TellsApart fingerprint calls) :
    ((after fingerprint calls).size : ℕ∞) = {key | Kept calls key}.encard := by
  simp only [← encard_keys, exists_mem_after_iff h]

/-- **As many schemas are dropped as there are roots and options with the root.** -/
theorem invalidate_after (h : TellsApart fingerprint calls) (root : String) :
    (((after fingerprint calls).invalidate root).1 : ℕ∞)
      = {key | Kept calls key ∧ key.1 = root}.encard := by
  let dropped := (after fingerprint calls).filter fun e => e.schema.root = root
  have hcount : ((after fingerprint calls).invalidate root).1 = dropped.size := by
    have hlength := List.length_eq_length_filter_add (l := (after fingerprint calls).entries)
      fun e => decide (e.schema.root = root)
    simp only [← decide_not] at hlength
    exact Nat.sub_eq_of_eq_add hlength
  rw [hcount, ← encard_keys]
  congr 1
  ext key
  simp only [← exists_mem_after_iff h, Set.mem_ofPred_eq, dropped, mem_filter_iff,
    decide_eq_true_iff]
  constructor
  · rintro ⟨e, ⟨he, hroot⟩, rfl⟩
    exact ⟨⟨e, he, rfl⟩, hroot⟩
  · rintro ⟨⟨e, he, rfl⟩, hroot⟩
    exact ⟨e, ⟨he, hroot⟩, rfl⟩

/-! ## What a get answers -/

omit [DecidableEq φ] in
theorem TellsApart.of_cut {earlier since : List Call}
    (h : TellsApart fingerprint (earlier ++ call :: since)) :
    TellsApart fingerprint (earlier ++ [call]) := by
  rw [List.append_cons] at h
  exact h.of_append

theorem LastGet.asked {since : List Call} (hlast : LastGet fingerprint calls key r e since)
    (h : TellsApart fingerprint calls) : e.schema.registry = r ∧ e.key = key := by
  obtain ⟨earlier, rfl, hanswer, -⟩ := hlast
  exact asked_of_answer h.of_cut hanswer

/-- **There is one last get.** -/
theorem LastGet.unique {r' : Registry} {e' : Entry} {since since' : List Call}
    (h : TellsApart fingerprint calls) (hlast : LastGet fingerprint calls key r e since)
    (hlast' : LastGet fingerprint calls key r' e' since') : e = e' ∧ since = since' := by
  induction calls using List.reverseRecOn generalizing since since' with
  | nil => exact absurd hlast not_lastGet_nil
  | append_singleton calls call ih =>
    rcases lastGet_append_singleton.mp hlast with ⟨rfl, rfl, hanswer⟩ | ⟨since, rfl, hlast, hgets⟩
    · rcases lastGet_append_singleton.mp hlast' with ⟨rfl, hcall, hanswer'⟩ | ⟨_, -, -, hgets'⟩
      · obtain ⟨rfl, -⟩ := Call.get.inj hcall
        exact ⟨Except.ok.inj (hanswer.symm.trans hanswer'), rfl⟩
      · exact absurd ((gets_get_iff h).mpr ⟨rfl, e, hanswer⟩) hgets'
    · rcases lastGet_append_singleton.mp hlast' with ⟨-, rfl, hanswer'⟩ | ⟨since', rfl, hlast', -⟩
      · exact absurd ((gets_get_iff h).mpr ⟨rfl, e', hanswer'⟩) hgets
      · obtain ⟨rfl, rfl⟩ := ih h.of_append hlast hlast'
        exact ⟨rfl, rfl⟩

/-- No call lowers the next serial number. -/
theorem built_le_step (fingerprint : Registry → φ) (c : Cache) (call : Call) :
    c.built ≤ (step fingerprint c call).built := by
  cases call with
  | get r key =>
    unfold step
    dsimp only
    have hgot := got_getBy fingerprint c r key
    generalize c.getBy fingerprint r key.1 key.2 = result at hgot ⊢
    cases hgot with
    | hit _ _ _ => exact Nat.le_refl _
    | failed _ => exact Nat.le_refl _
    | built _ _ => exact Nat.le_succ _
  | invalidate root => exact Nat.le_refl _
  | clear => exact Nat.le_refl _

/-- What the last get gave out was given out. -/
theorem LastGet.given {since : List Call} (hlast : LastGet fingerprint calls key r e since) :
    Given fingerprint calls e := by
  obtain ⟨earlier, hcalls, hanswer, -⟩ := hlast
  exact ⟨earlier, r, key, since, hcalls, hanswer⟩

theorem not_given_nil : ¬ Given fingerprint [] e := by
  rintro ⟨earlier, r, key, since, heq, -⟩
  simp at heq

/-- What was given out after one more call is what that call answers and what was given out
before. -/
theorem given_append_singleton :
    Given fingerprint (calls ++ [call]) e
      ↔ (∃ r key, call = .get r key ∧ answer fingerprint calls r key = .ok e)
        ∨ Given fingerprint calls e := by
  unfold Given
  simp only [append_singleton_eq_append_cons_iff]
  constructor
  · rintro ⟨earlier, r, key, since, ⟨rfl, rfl, rfl⟩ | ⟨since', rfl, hcalls⟩, hanswer⟩
    · exact Or.inl ⟨r, key, rfl, hanswer⟩
    · exact Or.inr ⟨earlier, r, key, since', hcalls, hanswer⟩
  · rintro (⟨r, key, rfl, hanswer⟩ | ⟨earlier, r, key, since, hcalls, hanswer⟩)
    · exact ⟨calls, r, key, [], Or.inl ⟨rfl, rfl, rfl⟩, hanswer⟩
    · exact ⟨earlier, r, key, since ++ [call], Or.inr ⟨since, rfl, hcalls⟩, hanswer⟩

/-- **What was given out was built before.** -/
theorem serial_lt_of_given (h : Given fingerprint calls e) :
    e.serial < (after fingerprint calls).built := by
  induction calls using List.reverseRecOn with
  | nil => exact absurd h not_given_nil
  | append_singleton calls call ih =>
    rw [after_append_singleton]
    rcases given_append_singleton.mp h with ⟨r, key, rfl, hanswer⟩ | h
    · exact Cache.serial_lt _ e (mem_getBy_iff.mpr (Or.inl hanswer))
    · exact Nat.lt_of_lt_of_le (ih h) (built_le_step ..)

/-- **A schema that a get gives out is held or new**: it is held for an equal registry, or no such
schema is held and it has the next serial number. -/
theorem held_or_new (h : TellsApart fingerprint (calls ++ [.get r key]))
    (hanswer : answer fingerprint calls r key = .ok e) :
    Held fingerprint calls key r e
      ∨ (∀ e', ¬ Held fingerprint calls key r e') ∧ e.serial = (after fingerprint calls).built := by
  have hasked := asked_of_answer h hanswer
  unfold answer at hanswer
  have hgot := got_getBy fingerprint (after fingerprint calls) r key
  generalize (after fingerprint calls).getBy fingerprint r key.1 key.2 = result at hgot hanswer
  cases hgot with
  | hit hmem _ _ =>
    obtain rfl := Except.ok.inj hanswer
    obtain ⟨rfl, rfl⟩ := hasked
    exact Or.inl ((mem_after_iff h.of_append).mp hmem)
  | failed _ => exact nomatch hanswer
  | built _ hother =>
    obtain rfl := Except.ok.inj hanswer
    refine Or.inr ⟨fun e' hheld => ?_, rfl⟩
    obtain ⟨hr, hkey⟩ : e'.schema.registry = r ∧ e'.key = key := by
      obtain ⟨since, hlast, -⟩ := hheld
      exact hlast.asked h.of_append
    refine hother e' ?_ hkey (congrArg fingerprint hr)
    rw [mem_after_iff h.of_append, hr, hkey]
    exact hheld

/-- **A serial number is that of one schema.** -/
theorem Given.unique {e' : Entry} (h : TellsApart fingerprint calls)
    (hgiven : Given fingerprint calls e) (hgiven' : Given fingerprint calls e')
    (hserial : e.serial = e'.serial) : e = e' := by
  induction calls using List.reverseRecOn generalizing e e' with
  | nil => exact absurd hgiven not_given_nil
  | append_singleton calls call ih =>
    have hnew {r : Registry} {key : Key} {e e' : Entry} (hcall : call = .get r key)
        (hanswer : answer fingerprint calls r key = .ok e) (hbefore : Given fingerprint calls e')
        (hserial : e.serial = e'.serial) : e = e' := by
      subst hcall
      rcases held_or_new h hanswer with ⟨since, hlast, -⟩ | ⟨-, hbuilt⟩
      · exact ih h.of_append hlast.given hbefore hserial
      · exact absurd (hserial.symm.trans hbuilt) (serial_lt_of_given hbefore).ne
    rcases given_append_singleton.mp hgiven with ⟨r, key, hcall, hanswer⟩ | hgiven
    · rcases given_append_singleton.mp hgiven' with ⟨r', key', hcall', hanswer'⟩ | hgiven'
      · obtain ⟨rfl, rfl⟩ := Call.get.inj (hcall.symm.trans hcall')
        exact Except.ok.inj (hanswer.symm.trans hanswer')
      · exact hnew hcall hanswer hgiven' hserial
    · rcases given_append_singleton.mp hgiven' with ⟨r', key', hcall', hanswer'⟩ | hgiven'
      · exact (hnew hcall' hanswer' hgiven hserial.symm).symm
      · exact ih h.of_append hgiven hgiven' hserial

/-- **What a get answers after calls**, said of the calls. Two answers are one schema, and not two
equal ones, if they have one serial number. -/
structure Answers (fingerprint : Registry → φ) (calls : List Call) (r : Registry) (key : Key) :
    Prop where
  /-- There is a schema exactly if it can be built, and otherwise the error of building it. -/
  builds : (answer fingerprint calls r key).map Entry.schema = Schema.build r key.1 key.2
  /-- The schema is the one that was asked for. -/
  asked : ∀ e, answer fingerprint calls r key = .ok e →
    e.schema.registry = r ∧ e.schema.root = key.1 ∧ e.schema.options = key.2
  /-- An error changes nothing. -/
  unchanged : ∀ err, answer fingerprint calls r key = .error err →
    after fingerprint (calls ++ [.get r key]) = after fingerprint calls
  /-- The schema is that of the last successful get exactly if that one had an equal registry and
  nothing was dropped since. -/
  same : ∀ e, answer fingerprint calls r key = .ok e → ∀ r' e' since,
    LastGet fingerprint calls key r' e' since →
      (e.serial = e'.serial ↔ r' = r ∧ ∀ call ∈ since, ¬ call.Drops key)
  /-- Otherwise the schema is new. -/
  fresh : ∀ e, answer fingerprint calls r key = .ok e →
    (∀ r' e' since, LastGet fingerprint calls key r' e' since →
      ¬ (r' = r ∧ ∀ call ∈ since, ¬ call.Drops key)) →
    ∀ e', Given fingerprint calls e' → e'.serial < e.serial
  /-- No other schema was given out with its serial number. -/
  identified : ∀ e, answer fingerprint calls r key = .ok e →
    ∀ e', Given fingerprint calls e' → e'.serial = e.serial → e' = e

/-- **Every get answers what the calls before it say.** -/
theorem answers (h : TellsApart fingerprint (calls ++ [.get r key])) :
    Answers fingerprint calls r key where
  builds := map_answer h
  asked e hanswer := Schema.build_eq_ok_iff.mp (build_of_answer h hanswer)
  unchanged err hanswer := by
    rw [after_append_singleton]
    unfold answer at hanswer
    unfold step
    dsimp only
    have hgot := got_getBy fingerprint (after fingerprint calls) r key
    generalize (after fingerprint calls).getBy fingerprint r key.1 key.2 = result at hgot hanswer ⊢
    cases hgot with
    | hit _ _ _ => exact nomatch hanswer
    | failed _ => rfl
    | built _ _ => exact nomatch hanswer
  same e hanswer r' e' since hlast := by
    rcases held_or_new h hanswer with ⟨since', hlast', hkept⟩ | ⟨hnone, hserial⟩
    · obtain ⟨rfl, rfl⟩ := hlast.unique h.of_append hlast'
      have hr : r' = r := (hlast.asked h.of_append).1.symm.trans (hlast'.asked h.of_append).1
      exact ⟨fun _ => ⟨hr, hkept⟩, fun _ => rfl⟩
    · constructor
      · intro hsame
        exact absurd (hsame.symm.trans hserial) (serial_lt_of_given hlast.given).ne
      · rintro ⟨rfl, hkept⟩
        exact absurd ⟨since, hlast, hkept⟩ (hnone e')
  fresh e hanswer hnone e' hgiven := by
    rcases held_or_new h hanswer with ⟨since, hlast, hkept⟩ | ⟨-, hserial⟩
    · exact absurd ⟨rfl, hkept⟩ (hnone r e since hlast)
    · exact hserial ▸ serial_lt_of_given hgiven
  identified e hanswer e' hgiven hserial :=
    Given.unique h (given_append_singleton.mpr (Or.inr hgiven))
      (given_append_singleton.mpr (Or.inl ⟨r, key, rfl, hanswer⟩)) hserial

/-! ## Runs -/

/-- **A cache follows its history.** In a run of calls from the empty cache whose registries the
fingerprint tells apart, every get answers what the calls before it say. At any time as many
schemas are kept as roots and options were asked for with success and not dropped since.
Invalidating a root returns how many of these have the root, and drops exactly their schemas. -/
theorem run_follows_history (h : TellsApart fingerprint calls) :
    (∀ before r key rest, calls = before ++ .get r key :: rest → Answers fingerprint before r key)
    ∧ (∀ before rest, calls = before ++ rest →
        ((after fingerprint before).size : ℕ∞) = {key | Kept before key}.encard)
    ∧ ∀ before root rest, calls = before ++ .invalidate root :: rest →
        (((after fingerprint before).invalidate root).1 : ℕ∞)
          = {key | Kept before key ∧ key.1 = root}.encard
        ∧ ∀ e, e ∈ (after fingerprint (before ++ [.invalidate root])).entries
            ↔ e ∈ (after fingerprint before).entries ∧ e.schema.root ≠ root := by
  refine ⟨?_, ?_, ?_⟩
  · rintro before r key rest rfl
    exact answers h.of_cut
  · rintro before rest rfl
    exact size_after h.of_append
  · rintro before root rest rfl
    refine ⟨invalidate_after h.of_append root, fun e => ?_⟩
    rw [after_append_singleton]
    exact mem_invalidate_iff

/-- Registries told apart by their number of models. A get that fails for a broken registry and
an invalidated other root leave the schema of a post, so it is given out again; with one more
model it is built anew. -/
theorem run_follows_history_posts :
    let fingerprint (r : Registry) : Nat := r.ids.length
    let posts := Registry.empty.withModel "post" ⟨[.plain "title" .text]⟩
    let more := posts.withModel "user" ⟨[.plain "name" .text]⟩
    let broken := more.withModel "tag" ⟨[.relation "page" "page"]⟩
    let key : Key := ("post", .standard)
    let before : List Call := [.get posts key, .get broken key, .invalidate "user"]
    let calls := before ++ [.get posts key, .get more key, .invalidate "post"]
    TellsApart fingerprint calls
      ∧ Answers fingerprint before posts key
      ∧ answer fingerprint before posts key = answer fingerprint [] posts key
      ∧ (answer fingerprint (before ++ [.get posts key]) more key).map Entry.serial = .ok 1
      ∧ {key | Kept before key}.encard = 1 ∧ {key | Kept calls key}.encard = 0 := by
  intro fingerprint posts more broken key before calls
  have hmem (r : Registry) (hr : ∃ key, Call.get r key ∈ calls) : r ∈ [posts, broken, more] := by
    obtain ⟨key, hr⟩ := hr
    simp only [calls, before, List.cons_append, List.nil_append, List.mem_cons, Call.get.injEq,
      reduceCtorEq, List.not_mem_nil, or_false, false_or] at hr ⊢
    tauto
  have hapart : TellsApart fingerprint calls := fun r hr r' hr' heq =>
    List.inj_on_of_nodup_map (f := fingerprint) (by decide +kernel) (hmem r hr) (hmem r' hr') heq
  obtain ⟨hanswers, hsize, -⟩ := run_follows_history hapart
  refine ⟨hapart, hanswers before posts key _ rfl, by decide +kernel, by decide +kernel, ?_, ?_⟩
  · rw [← hsize before _ rfl]
    have h : (after fingerprint before).size = 1 := by decide +kernel
    rw [h]
    rfl
  · rw [← hsize calls [] (List.append_nil calls).symm]
    have h : (after fingerprint calls).size = 0 := by decide +kernel
    rw [h]
    rfl

end RecordQuery.Cache
