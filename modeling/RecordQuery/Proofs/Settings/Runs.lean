import RecordQuery.Proofs.Files.Tree
import RecordQuery.Proofs.Settings.File

/-!
# Runs of commands that set a key each

Every command reads the file, changes one value and writes the whole file again. If it
fails, no file has changed and the settings are what they were; if it succeeds, the settings
are what they were but for the value of its key (`change_last_write_wins`). So after a run
every key has the value that the last successful command has given it, or the one that it
had at the start (`lastSet?`).

Between reading and writing a command may fail in several places (`change_cases`). Some of them
come after something was changed: the folders on the way of the file are made before it is known
whether the settings can be written. That must not bring another file into reach of the path, but
it does if the path steps back over a folder that did not exist (`change_uncovers_file`). Hence
the condition that it does not (`StepsBackInside`).
-/

namespace RecordQuery.Settings

open FileTree

variable {file name text : String} {t t' : FileTree} {s : Settings}

/-! ## Loading -/

theorem bind_apply {α β : Type} (x : StateM FileTree α) (f : α → StateM FileTree β) (t : FileTree) :
    (x >>= f) t = f (x t).1 (x t).2 := rfl

/-- **The settings that a tree has in a file**: those of its text, brought to the current version,
or none without a file. -/
def loaded (file : String) (t : FileTree) : Except SettingsError Settings :=
  if t.leads file then
    match t.read file with
    | .error e => .error (.unreadable e)
    | .ok text =>
      match ofText? text with
      | none => .error .malformed
      | some s => .ok s.migrate
  else .ok unset

/-- **Loading does not change anything.** -/
theorem load_eq (file : String) (t : FileTree) :
    (load file : StateM FileTree _) t = (loaded file t, t) := by
  have hleads : (Files.leads file : StateM FileTree Bool) t = (t.leads file, t) := rfl
  have hread : (Files.read file : StateM FileTree _) t = (t.read file, t) := rfl
  rw [load, bind_apply, hleads, loaded]
  dsimp only
  split
  · rw [bind_apply, hread]
    cases t.read file with
    | error e => rfl
    | ok text =>
      dsimp only
      cases ofText? text <;> rfl
  · rfl

/-- Loaded settings are of the current version. -/
theorem version_of_loaded (h : loaded file t = .ok s) : s.version = currentVersion := by
  unfold loaded at h
  split at h
  · split at h
    · cases h
    · split at h
      · cases h
      · obtain rfl := Except.ok.inj h
        rfl
  · obtain rfl := Except.ok.inj h
    rfl

/-- **What a text in the file holds is loaded.** -/
theorem loaded_of_find {place : Place} (hchecked : checked file = .ok (.ofText file))
    (hfind : t.find (.ofText file) = .ok (place, .file text)) (htext : ofText? text = some s) :
    loaded file t = .ok s.migrate := by
  have hread : t.read file = .ok text := read_eq_ok_iff.mpr ⟨hchecked, place, hfind⟩
  rw [loaded, if_pos (leads_eq_true_iff.mpr ⟨hchecked, _, hfind⟩), hread]
  dsimp only
  rw [htext]

/-- A file whose settings are loaded is there. -/
theorem exists_find_of_loaded (h : loaded file t = .ok s) (hleads : t.leads file = true) :
    checked file = .ok (.ofText file)
      ∧ ∃ place text, t.find (.ofText file) = .ok (place, .file text) := by
  rw [loaded, if_pos hleads] at h
  split at h
  · cases h
  · rename_i text hread
    obtain ⟨hchecked, place, hfind⟩ := read_eq_ok_iff.mp hread
    exact ⟨hchecked, place, text, hfind⟩

/-- **Where no file has changed, the same settings are loaded.** -/
theorem loaded_of_sameFiles (hsame : SameFiles file t t') (h : loaded file t = .ok s) :
    loaded file t' = .ok s := by
  obtain ⟨-, hleads, hread⟩ := hsame
  by_cases hthere : t.leads file = true
  · obtain ⟨hchecked, place, text, hfind⟩ := exists_find_of_loaded h hthere
    have htext : t.read file = .ok text := read_eq_ok_iff.mpr ⟨hchecked, place, hfind⟩
    have htext' : t'.read file = .ok text := by
      rw [htext] at hread
      cases hcase : t'.read file with
      | error e =>
        rw [hcase] at hread
        cases hread
      | ok text' =>
        rw [hcase] at hread
        exact congrArg Except.ok (Option.some.inj hread)
    rw [loaded, if_pos hthere, htext] at h
    rw [loaded, if_pos (hleads.trans hthere), htext']
    exact h
  · rw [loaded, if_neg hthere] at h
    rw [loaded, hleads, if_neg hthere]
    exact h

/-! ## One command -/

/-- **Why a key is not set to a value**: there is no such key, the text means no value of it, or
the settings would have no place in a file. -/
inductive Refused (s : Settings) (name text : String) : SettingsError → Prop
  | unknownKey (hkey : Key.ofName? name = none) : Refused s name text (.unknownKey name)
  | invalid {key : Key} {e : SettingsError} (hkey : Key.ofName? name = some key)
      (he : key.read text = .error e) :
      Refused s name text e
  | outOfRange {key : Key} {v : Value} (hkey : Key.ofName? name = some key)
      (hv : key.read text = .ok v)
      (hnone : (s.put key v).fileText? = none) : Refused s name text .depthOutOfRange

/-- **Why a file cannot be written**: its folder cannot be made, or it cannot be written there. -/
inductive Blocked (file : String) (t : FileTree) : SettingsError → Prop
  | noFolder {e : FileError} (h : (t.makeParents file).1 = .error e) : Blocked file t (.noFolder e)
  | unwritable {content : String} {e : FileError}
      (h : (t.makeParents file).2.write file content = .error e) :
      Blocked file t (.unwritable e)

/-- What follows the loading of settings. -/
theorem change_of_loaded (h : loaded file t = .ok s) (name text : String) :
    (change file name text : StateM FileTree _) t =
      match s.assign name text with
      | .error e => (.error e, t)
      | .ok next => (save file next : StateM FileTree _) t := by
  rw [change, bind_apply, load_eq, h]
  dsimp only
  cases s.assign name text <;> rfl

/-- What is done to write settings. -/
theorem save_eq (file : String) (next : Settings) (t : FileTree) :
    (save file next : StateM FileTree _) t =
    match t.makeParents file, next.fileText? with
    | (.error e, t'), _ => (.error (.noFolder e), t')
    | (.ok (), t'), none => (.error .depthOutOfRange, t')
    | (.ok (), t'), some content =>
      match t'.write file content with
      | .error e => (.error (.unwritable e), t')
      | .ok t'' => (.ok (), t'') := by
  have hmake : (Files.makeParents file : StateM FileTree _) t = t.makeParents file := rfl
  have hwrite : ∀ (t : FileTree) (content : String),
      (Files.write file content : StateM FileTree _) t =
      match t.write file content with
      | .error e => (.error e, t)
      | .ok t' => (.ok (), t') := fun _ _ => rfl
  rw [save, bind_apply, hmake]
  rcases t.makeParents file with ⟨e | _, t'⟩
  · rfl
  · dsimp only
    cases next.fileText? with
    | none => rfl
    | some content =>
      dsimp only
      rw [bind_apply, hwrite]
      cases t'.write file content <;> rfl

/-- **What a command that sets a key can do**: fail and leave the tree as it is, but for the
folders of the file, or write the settings with the key's new value. -/
theorem change_cases (h : loaded file t = .ok s) (name text : String) :
    (∃ e t', (change file name text : StateM FileTree _) t = (.error e, t')
      ∧ (Refused s name text e ∨ Blocked file t e)
      ∧ (t' = t ∨ t' = (t.makeParents file).2))
    ∨ ∃ key v content t', (change file name text : StateM FileTree _) t = (.ok (), t')
      ∧ Key.ofName? name = some key
      ∧ key.read text = .ok v ∧ (s.put key v).fileText? = some content
      ∧ (t.makeParents file).2.write file content = .ok t' := by
  rw [change_of_loaded h, assign]
  cases hkey : Key.ofName? name with
  | none => exact Or.inl ⟨_, _, rfl, Or.inl (.unknownKey hkey), Or.inl rfl⟩
  | some key =>
    dsimp only
    cases hv : key.read text with
    | error e => exact Or.inl ⟨_, _, rfl, Or.inl (.invalid hkey hv), Or.inl rfl⟩
    | ok v =>
      dsimp only
      rw [save_eq]
      cases hmake : t.makeParents file with
      | mk made t' =>
        have ht' : t' = (t.makeParents file).2 := by rw [hmake]
        cases made with
        | error e => exact Or.inl ⟨_, _, rfl, Or.inr (.noFolder (by rw [hmake])), Or.inr rfl⟩
        | ok made =>
          cases hcontent : (s.put key v).fileText? with
          | none => exact Or.inl ⟨_, _, rfl, Or.inl (.outOfRange hkey hv hcontent), Or.inr rfl⟩
          | some content =>
            dsimp only
            cases hwrite : t'.write file content with
            | error e => exact Or.inl ⟨_, _, rfl, Or.inr (.unwritable (ht' ▸ hwrite)), Or.inr rfl⟩
            | ok t'' => exact Or.inr ⟨key, v, content, t'', rfl, rfl, hv, hcontent, hwrite⟩

/-- **A file with settings can be written**: its folders are not made again, and it is in
the place of no folder. -/
theorem not_blocked_of_leads (h : loaded file t = .ok s) (hleads : t.leads file = true)
    {e : SettingsError} : ¬Blocked file t e := by
  obtain ⟨hchecked, place, text, hfind⟩ := exists_find_of_loaded h hleads
  have hparents := makeParents_of_find hchecked hfind
  rintro (hmake | @⟨content, _, hwrite⟩)
  · rw [hparents] at hmake
    cases hmake
  · obtain ⟨t', ht'⟩ : ∃ t', t.write file content = .ok t' := exists_write hchecked hfind
    rw [hparents, ht'] at hwrite
    cases hwrite

theorem version_put (s : Settings) (key : Key) (v : Value) : (s.put key v).version = s.version := by
  cases key <;> cases v <;> rfl

/-- **A tree in which commands can set keys**: the path of the file steps back over nothing but
folders that exist, and the file has settings. -/
structure Ready (file : String) (t : FileTree) (s : Settings) : Prop where
  /-- The path does not step back over a folder that does not exist. -/
  inside : StepsBackInside t file
  /-- The settings are those in the file. -/
  loaded : loaded file t = .ok s

/-- **A command either fails and changes no file or sets its key.** It is not blocked
if the file is there. -/
theorem Ready.change (h : Ready file t s) (name text : String) :
    (∃ e t', (change file name text : StateM FileTree _) t = (.error e, t')
      ∧ (Refused s name text e ∨ Blocked file t e ∧ t.leads file = false) ∧ SameFiles file t t'
        ∧ Ready file t' s)
    ∨ ∃ key v t', (change file name text : StateM FileTree _) t = (.ok (), t')
      ∧ Key.ofName? name = some key
      ∧ key.read text = .ok v ∧ Ready file t' (s.put key v) := by
  have hinside : StepsBackInside (t.makeParents file).2 file :=
    (gains_makeParents t file).keepsFolders.stepsBackInside h.inside
  rcases change_cases h.loaded name text with
    ⟨e, t', hrun, hreason, ht'⟩ | ⟨key, v, content, t', hrun, hkey, hv, hcontent, hwrite⟩
  · left
    have hready : SameFiles file t t' ∧ StepsBackInside t' file := by
      rcases ht' with rfl | rfl
      · exact ⟨⟨fun _ _ => Iff.rfl, rfl, rfl⟩, h.inside⟩
      · exact ⟨sameFiles_makeParents h.inside, hinside⟩
    obtain ⟨hsame, hinside⟩ := hready
    have hmissing : Blocked file t e → t.leads file = false := fun hblocked =>
      Bool.eq_false_iff.mpr fun hleads => not_blocked_of_leads h.loaded hleads hblocked
    exact ⟨e, t', hrun, hreason.imp_right fun hblocked => ⟨hblocked, hmissing hblocked⟩, hsame,
      hinside, loaded_of_sameFiles hsame h.loaded⟩
  · right
    obtain ⟨hchecked, place, hfind⟩ := find_of_write hwrite
    have hversion : (s.put key v).version = currentVersion :=
      (version_put s key v).trans (version_of_loaded h.loaded)
    have htext : ofText? content = some (s.put key v) :=
      ofText?_fileText? (by rw [hversion]; decide) hcontent
    have hmigrate : (s.put key v).migrate = s.put key v := by
      rw [migrate, ← hversion]
    refine ⟨key, v, t', hrun, hkey, hv, (keepsFolders_write hwrite).stepsBackInside hinside, ?_⟩
    rw [loaded_of_find hchecked hfind htext, hmigrate]

/-! ## Runs -/

/-- **Runs commands** that set a key each, given by the key's name and the text of the value. -/
def changeAll {m : Type → Type} [Monad m] [Files m] (file : String)
    (commands : List (String × String)) :
    m (List (Except SettingsError Unit)) := commands.mapM fun c => change file c.1 c.2

/-- The value that a command has given to a key. -/
def setBy? (key : Key) (name text : String) : Except SettingsError Unit → Option Value
  | .error _ => none
  | .ok () => if Key.ofName? name = some key then (key.read text).toOption else none

/-- **The value that the last successful command for a key has given to it.** -/
def lastSet? (key : Key) : List ((String × String) × Except SettingsError Unit) → Option Value
  | [] => none
  | ((name, text), outcome) :: later => (lastSet? key later).or (setBy? key name text outcome)

theorem changeAll_cons (file name text : String) (commands : List (String × String))
    (t : FileTree) :
    (changeAll file ((name, text) :: commands) : StateM FileTree _) t =
      ((((change file name text : StateM FileTree _) t).1
          :: ((changeAll file commands : StateM FileTree _)
            ((change file name text : StateM FileTree _) t).2).1),
        ((changeAll file commands : StateM FileTree _)
          ((change file name text : StateM FileTree _) t).2).2) := by
  rw [changeAll, List.mapM_cons]
  rfl

/-- **After every run each key has the value that was set last.** -/
theorem Ready.changeAll (h : Ready file t s) (commands : List (String × String)) :
    ∃ s', Ready file ((changeAll file commands : StateM FileTree _) t).2 s'
      ∧ ∀ key, s'.value? key
        = (lastSet? key
          (commands.zip ((Settings.changeAll file commands : StateM FileTree _) t).1)).or
          (s.value? key) := by
  induction commands generalizing t s with
  | nil => exact ⟨s, h, fun _ => rfl⟩
  | cons c commands ih =>
    obtain ⟨name, text⟩ := c
    rw [changeAll_cons]
    rcases h.change name text with ⟨e, t', hrun, -, -, hready⟩
      | ⟨key, v, t', hrun, hkey, hv, hready⟩
    · obtain ⟨s', hready', hvalues⟩ := ih hready
      rw [hrun]
      refine ⟨s', hready', fun key => ?_⟩
      rw [hvalues, List.zip_cons_cons, lastSet?, setBy?, Option.or_none]
    · obtain ⟨s', hready', hvalues⟩ := ih hready
      rw [hrun]
      refine ⟨s', hready', fun other => ?_⟩
      rw [hvalues, List.zip_cons_cons, lastSet?, setBy?, hkey, value?_put hv, Option.or_assoc]
      congr 1
      by_cases hother : other = key
      · subst hother
        simp [hv, Except.toOption]
      · rw [if_neg hother, if_neg fun heq => hother (Option.some.inj heq).symm, Option.none_or]

/-- **Settings of the current version that differ from others in one key alone.** -/
def Sets (key : Key) (v : Value) (s s' : Settings) : Prop :=
  s'.version = currentVersion ∧ ∀ other, s'.value? other
    = if other = key then some v else s.value? other

/-- **The last write wins, and a write that fails changes nothing.** Commands that set a key
each are run from a tree in which the file is missing or has settings. Each of them that fails
leaves all files and the settings as they were: it is refused for its key, for its value or
because the settings would have no place in a file, or the file is not there yet and cannot be
made. Each of them that succeeds gives its key the value that is meant, and leaves every other
key as it was. So after the run each key has the value of the last command that has set it, or
the one from the start. -/
theorem change_last_write_wins (hinside : StepsBackInside t file)
    (hload : (load file : StateM FileTree _) t = (.ok s, t)) (commands : List (String × String)) :
    (∀ before name text after, commands = before ++ (name, text) :: after →
      ∃ u s₁, ((changeAll file before : StateM FileTree _) t).2 = u
        ∧ (load file : StateM FileTree _) u = (.ok s₁, u)
        ∧ ((∃ e u', (change file name text : StateM FileTree _) u = (.error e, u')
              ∧ (Refused s₁ name text e ∨ Blocked file u e ∧ u.leads file = false)
              ∧ SameFiles file u u' ∧ (load file : StateM FileTree _) u' = (.ok s₁, u'))
          ∨ ∃ key v u' s₂, (change file name text : StateM FileTree _) u = (.ok (), u')
              ∧ Key.ofName? name = some key ∧ key.read text = .ok v
              ∧ (load file : StateM FileTree _) u' = (.ok s₂, u') ∧ Sets key v s₁ s₂))
    ∧ ∃ outcomes u s', (changeAll file commands : StateM FileTree _) t = (outcomes, u)
        ∧ (load file : StateM FileTree _) u = (.ok s', u)
        ∧ ∀ key, s'.value? key = (lastSet? key (commands.zip outcomes)).or (s.value? key) := by
  have hstart : Ready file t s := ⟨hinside, (Prod.mk.inj ((load_eq file t).symm.trans hload)).1⟩
  have hload_eq : ∀ {u : FileTree} {s : Settings},
      Ready file u s → (load file : StateM FileTree _) u = (.ok s, u) := by
    intro u s hready
    rw [load_eq, hready.loaded]
  constructor
  · rintro before name text after -
    obtain ⟨s₁, hready, -⟩ := hstart.changeAll before
    refine ⟨_, s₁, rfl, hload_eq hready, ?_⟩
    rcases hready.change name text with ⟨e, u', hrun, hreason, hsame, hready'⟩
      | ⟨key, v, u', hrun, hkey, hv, hready'⟩
    · exact Or.inl ⟨e, u', hrun, hreason, hsame, hload_eq hready'⟩
    · exact Or.inr ⟨key, v, u', s₁.put key v, hrun, hkey, hv, hload_eq hready',
        version_of_loaded hready'.loaded, value?_put hv s₁⟩
  · obtain ⟨s', hready, hvalues⟩ := hstart.changeAll commands
    exact ⟨_, _, s', rfl, hload_eq hready, hvalues⟩

/-- A tree with one file of settings. -/
def shelf : FileTree := FileTree.empty.withFile "config.toml" "[schema]\nmodel = \"book\"\n"

/-- Settings in a folder that is not there yet: the second command is refused, and the third
one wins over the first. -/
theorem change_last_write_wins_new_folder : StepsBackInside shelf "a/config.toml"
    ∧ (load "a/config.toml" : StateM FileTree _) shelf = (.ok unset, shelf)
    ∧ ∃ u s,
      ((changeAll "a/config.toml" [("schema.model", "book"),
        ("schema.max_depth", "10000000000000000000"),
          ("schema.model", "user")] : StateM FileTree _) shelf)
          = ([.ok (), .error .depthOutOfRange, .ok ()], u)
        ∧ (load "a/config.toml" : StateM FileTree _) u = (.ok s, u)
        ∧ s.value? .model = some (.text "user") ∧ s.value? .maxDepth = none := by
  have hinside : StepsBackInside shelf "a/config.toml" := by decide +kernel
  have hloaded : loaded "a/config.toml" shelf = .ok unset := by decide +kernel
  have hload : (load "a/config.toml" : StateM FileTree _) shelf = (.ok unset, shelf) := by
    rw [load_eq, hloaded]
  have houtcomes :
      ((changeAll "a/config.toml" [("schema.model", "book"),
        ("schema.max_depth", "10000000000000000000"), ("schema.model", "user")] :
        StateM FileTree _) shelf).1 = [.ok (), .error .depthOutOfRange, .ok ()] := by
        decide +kernel
  obtain ⟨-, outcomes, u, s, hrun, hs, hvalues⟩ := change_last_write_wins hinside hload
    [("schema.model", "book"), ("schema.max_depth", "10000000000000000000"),
      ("schema.model", "user")]
  rw [hrun] at houtcomes
  obtain rfl : outcomes = _ := houtcomes
  refine ⟨hinside, hload, u, s, hrun, hs, ?_, ?_⟩
  · rw [hvalues]
    decide +kernel
  · rw [hvalues]
    decide +kernel

/-- **Where a path steps back over a folder that does not exist, a command that fails
may bring a file into reach**: it makes the folder before it finds that the settings
have no place in a file. -/
theorem change_uncovers_file :
    ((load "a/../config.toml" : StateM FileTree _) shelf).1 = .ok unset
    ∧ ((change "a/../config.toml" "schema.max_depth" "10000000000000000000" :
          StateM FileTree _) shelf).1
      = .error .depthOutOfRange
    ∧ ((load "a/../config.toml" : StateM FileTree _)
        ((change "a/../config.toml" "schema.max_depth" "10000000000000000000" :
          StateM FileTree _) shelf).2).1
      = .ok { unset with model := some "book" } :=
  ⟨by decide +kernel, by decide +kernel, by decide +kernel⟩

end RecordQuery.Settings
