import RecordQuery.Proofs.Model.Serialization
import RecordQuery.Proofs.Toml.Lines
import RecordQuery.Settings.Store

/-!
# Settings are read back from their file

The text that is written for settings holds exactly them (`ofText?_fileText?`), whatever the texts
among them are and whichever of them are missing: a value that is not set has no line, and a name
without a line is a value that is not set.
-/

namespace RecordQuery.Settings

open Toml

/-! ## What the lines of the file build -/

/-- The entries of a table for a value that may be missing. -/
def entries {α : Type} (name : String) (toJson : α → Json) (o : Option α) : Entries :=
  (members name toJson o).map fun m => (m.1, .value m.2)

@[simp] theorem entriesJson_entries {α : Type} (name : String) (toJson : α → Json) (o : Option α) :
    entriesJson (entries name toJson o) = members name toJson o := by
  cases o <;> rfl

theorem lookup_entries_of_ne {α : Type} {key name : String} (h : key ≠ name) (toJson : α → Json)
    (o : Option α) :
    (entries name toJson o).lookup key = none := by
  cases o with
  | none => rfl
  | some x =>
    have hne : (key == name) = false := beq_eq_false_iff_ne.mpr h
    simp [entries, members, List.lookup_cons, hne]

/-- The document whose open table is its last one. -/
def opened (before : Entries) (table : String) (es : Entries) : Document :=
  ⟨[table], before ++ [(table, .table .header es)]⟩

/-- **A value that may be missing adds its entries to the open table.** -/
theorem builds_entries {α : Type} {name : String} (hname : IsBareName name) {text : α → String}
    {toJson : α → Json} {o : Option α} (ho : ∀ x ∈ o, Denotes (text x).toList (toJson x))
    {table : String} {before es : Entries} (htable : before.lookup table = none)
    (hes : es.lookup name = none) :
    Builds (line name text o).toList (opened before table es)
      (opened before table (es ++ entries name toJson o)) := by
  cases o with
  | none =>
    rw [show es ++ entries name toJson none = es from List.append_nil es]
    exact .nil _
  | some x =>
    have hline : (line name text (some x)).toList = name.toList ++ ' ' :: '=' :: ' '
        :: (text x).toList ++ ['\n'] := by
      simp [line]
    rw [hline]
    exact builds_assignment hname (ho x rfl) (Document.add?_section htable hes)

/-- The entries of the document's own table that are written first. -/
def versionEntries (s : Settings) : Entries := [("version", .value (.ofNat s.version))]

/-- The entries of the section for the schema. -/
def schemaEntries (s : Settings) : Entries :=
  entries "path" .string s.path ++ entries "model" .string s.model
    ++ entries "max_depth" .ofNat s.maxDepth

/-- The document of settings. -/
def document (s : Settings) : Document :=
  opened (s.versionEntries ++ [("schema", .table .header s.schemaEntries)]) "output"
    (entries "color" .bool s.colour)

theorem toJson_document (s : Settings) : s.document.toJson = s.toJson := by
  simp [document, opened, versionEntries, schemaEntries, Document.toJson, entriesJson,
    Item.toJson, entriesJson_append, toJson]

/-- **The file builds the document.** -/
theorem builds_fileText? {s : Settings} {text : String} (hversion : fitsInt64 s.version = true)
    (h : s.fileText? = some text) :
    Builds text.toList .empty s.document := by
  unfold fileText? at h
  split at h
  · rename_i hdepth
    obtain rfl := Option.some.inj h
    have hversions :
        Builds ("version".toList ++ ' ' :: '=' :: ' ' :: (toString s.version).toList ++ ['\n'])
          .empty
        ⟨[], s.versionEntries⟩ :=
      builds_assignment (by decide) (denotes_toString hversion) (Document.add?_root rfl)
    have hschema : Builds ('[' :: ("schema".toList ++ [']']) ++ ['\n']) ⟨[], s.versionEntries⟩
        (opened s.versionEntries "schema" []) :=
      builds_header (by decide) (Document.add?_table [] rfl)
    have hpath : Builds (line "path" quoted s.path).toList (opened s.versionEntries "schema" [])
        (opened s.versionEntries "schema" (entries "path" .string s.path)) :=
      builds_entries (by decide) (fun x _ => denotes_quoted x) rfl rfl
    have hmodel : Builds (line "model" quoted s.model).toList
        (opened s.versionEntries "schema" (entries "path" .string s.path))
        (opened s.versionEntries "schema"
          (entries "path" .string s.path ++ entries "model" .string s.model)) :=
      builds_entries (by decide) (fun x _ => denotes_quoted x) rfl
        (lookup_entries_of_ne (by decide) _ _)
    have hdepths : Builds (line "max_depth" toString s.maxDepth).toList
        (opened s.versionEntries "schema"
          (entries "path" .string s.path ++ entries "model" .string s.model))
        (opened s.versionEntries "schema" s.schemaEntries) := by
      refine builds_entries (by decide) (fun n hn => ?_) rfl ?_
      · rw [hn] at hdepth
        exact denotes_toString hdepth
      · rw [List.lookup_append, lookup_entries_of_ne (by decide),
          lookup_entries_of_ne (by decide), Option.none_or]
    have houtput : Builds ('[' :: ("output".toList ++ [']']) ++ ['\n'])
        (opened s.versionEntries "schema" s.schemaEntries)
        (opened (s.versionEntries ++ [("schema", .table .header s.schemaEntries)]) "output" []) :=
      builds_header (by decide) (Document.add?_table ["schema"] rfl)
    have hcolour : Builds (line "color" toString s.colour).toList
        (opened (s.versionEntries ++ [("schema", .table .header s.schemaEntries)]) "output" [])
          s.document :=
      builds_entries (by decide) (fun b _ => denotes_bool b) rfl rfl
    have hsections := hschema.append (hpath.append (hmodel.append (hdepths.append
      ((builds_blank _).append (houtput.append hcolour)))))
    have hall := hversions.append ((builds_blank _).append hsections)
    simpa using hall
  · cases h

/-- A value that may be missing is read back. -/
theorem optional?_map {α : Type} {read : Json → Option α} {toJson : α → Json} {o : Option α}
    (h : ∀ x ∈ o, read (toJson x) = some x) : optional? read (o.map toJson) = some o := by
  cases o with
  | none => rfl
  | some x => rw [Option.map_some, optional?, h x rfl, Option.map_some]

/-- Every member of settings is looked at as it is. -/
theorem settle_toJson (s : Settings) : shape.settle s.toJson = s.toJson := by
  obtain ⟨version, path, model, maxDepth, colour⟩ := s
  cases path <;> cases model <;> cases maxDepth <;> cases colour <;> rfl

/-- What is given for a name that may be missing, and for every other name. -/
@[simp] theorem valuesOf_members {α : Type} (name key : String) (toJson : α → Json)
    (o : Option α) :
    Json.valuesOf name (members key toJson o)
      = if key = name then (o.map toJson).toList else [] := by
  cases o <;> simp [members]

/-- **Settings are read back from their JSON form.** -/
theorem ofJson?_toJson {s : Settings} (hversion : s.version ≤ greatestVersion) :
    ofJson? s.toJson = some s := by
  have hfields : Json.fields? shape.names s.toJson = some [some (.ofNat s.version),
      some (.object (members "path" .string s.path ++ members "model" .string s.model
        ++ members "max_depth" .ofNat s.maxDepth)),
      some (.object (members "color" .bool s.colour))] :=
    Json.fields?_object (by simp [shape, Json.Shape.names])
  have hschema : readSection? schemaShape.names
      (.object (members "path" .string s.path ++ members "model" .string s.model
        ++ members "max_depth" .ofNat s.maxDepth))
      = some [s.path.map .string, s.model.map .string, s.maxDepth.map .ofNat] :=
    Json.fields?_object (by simp [schemaShape, Json.Shape.names])
  have houtput : readSection? outputShape.names (.object (members "color" .bool s.colour))
      = some [s.colour.map .bool] :=
    Json.fields?_object (by simp [outputShape, Json.Shape.names])
  have hnat : ∀ n : Nat, Json.nat? (.ofNat n) = some n := by
    intro n
    simp [Json.nat?, Json.ofNat]
  have hversion' : version? (.ofNat s.version) = some s.version := by
    rw [version?, hnat]
    exact if_pos hversion
  have hpath : optional? Json.text? (s.path.map .string) = some s.path :=
    optional?_map fun _ _ => rfl
  have hmodel : optional? Json.text? (s.model.map .string) = some s.model :=
    optional?_map fun _ _ => rfl
  have hdepth : optional? Json.nat? (s.maxDepth.map .ofNat) = some s.maxDepth :=
    optional?_map fun n _ => hnat n
  have hcolour : optional? Json.bool? (s.colour.map .bool) = some s.colour :=
    optional?_map fun _ _ => rfl
  unfold ofJson?
  rw [hfields]
  dsimp only
  rw [Json.withDefault?_some, Json.withDefault?_some, Json.withDefault?_some, hversion', hschema,
    houtput]
  simp only [Option.bind_eq_bind, Option.bind_some, hpath, hmodel, hdepth, hcolour]
  rfl

/-- **Settings are read back from their file.** -/
theorem ofText?_fileText? {s : Settings} {text : String} (hversion : s.version ≤ greatestVersion)
    (h : s.fileText? = some text) : ofText? text = some s := by
  have hfits : fitsInt64 s.version = true := by
    have hbounds : leastInt64 ≤ s.version ∧ (s.version : Int) ≤ greatestInt64 := by
      unfold leastInt64 greatestInt64
      unfold greatestVersion at hversion
      omega
    simp [fitsInt64, hbounds]
  have hmark : text.toList.head? ≠ some '\ufeff' := by
    unfold fileText? at h
    split at h
    · obtain rfl := Option.some.inj h
      simp
    · cases h
  rw [ofText?, readAs?, (builds_fileText? hfits h).read?_eq hmark, toJson_document,
    Option.map_some, settle_toJson, Option.bind_some, ofJson?_toJson hversion]

end RecordQuery.Settings
