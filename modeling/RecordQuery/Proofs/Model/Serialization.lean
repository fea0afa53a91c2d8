import Mathlib.Data.List.Basic
import RecordQuery.Schema.Introspection

/-!
# Registries and documents survive serialization

What is written as JSON is read back (`serialization_survives`), whatever the names and labels are
and whether or not a schema could be built of it. The proofs go up from the parts: a list and a
map are read back if what they hold is (`list?_map`, `map?_entries`), and a record if each of its
members is found under its name. A member that is left out is one that reading supplies, so
leaving it out loses nothing: for a field of a registry no suggestions are the same as an empty
list of them, and only one of the two is ever written, while for a field of an introspection
document they are two things and are written in two ways.
-/

namespace RecordQuery

/-! ## Lists and maps -/

namespace NameMap

variable {α : Type}

/-- A name behind all others is put at the end. -/
theorem insertEntry_of_forall_lt {name : String} {value : α} {entries : List (String × α)}
    (h : ∀ e ∈ entries, e.1 < name) :
    insertEntry name value entries = entries ++ [(name, value)] := by
  induction entries with
  | nil => rfl
  | cons e entries ih =>
    obtain ⟨k, v⟩ := e
    have hk : k < name := h (k, v) List.mem_cons_self
    rw [insertEntry, if_neg (String.lt_asymm hk), if_neg (String.ne_of_lt hk).symm,
      ih fun e he => h e (List.mem_cons_of_mem _ he)]
    rfl

/-- Entries in order are put behind those that are there. -/
theorem entries_foldl_insert (m : NameMap α) (more : List (String × α))
    (h : NamesIncrease (m.entries ++ more)) :
    (more.foldl (fun m e => m.insert e.1 e.2) m).entries = m.entries ++ more := by
  induction more generalizing m with
  | nil => simp
  | cons e more ih =>
    have hlast : insertEntry e.1 e.2 m.entries = m.entries ++ [e] := by
      refine insertEntry_of_forall_lt fun d hd => ?_
      exact (List.pairwise_append.mp h).2.2 d hd e List.mem_cons_self
    have hentries : (m.insert e.1 e.2).entries ++ more = m.entries ++ e :: more := by
      show insertEntry e.1 e.2 m.entries ++ more = _
      rw [hlast, List.append_assoc]
      rfl
    rw [List.foldl_cons, ih _ (hentries ▸ h), hentries]

/-- **A map is the map of its entries.** -/
theorem ofList_entries (m : NameMap α) : ofList m.entries = m := by
  have h : (ofList m.entries).entries = m.entries :=
    entries_foldl_insert .empty m.entries m.increasing
  cases hm : ofList m.entries with
  | mk entries increasing =>
    rw [hm] at h
    subst h
    rfl

end NameMap

namespace Json

theorem mapM_map {α β : Type} {write : α → β} {read : β → Option α}
    (h : ∀ x, read (write x) = some x) (xs : List α) : (xs.map write).mapM read = some xs := by
  induction xs with
  | nil => rfl
  | cons x xs ih => simp [h, ih]

variable {α : Type} {write : α → Json} {read : Json → Option α} (h : ∀ x, read (write x) = some x)

include h

/-- **A list is read back** if its items are. -/
theorem list?_map (xs : List α) : list? read (.array (xs.map write)) = some xs := mapM_map h xs

/-- **A map is read back** if its values are. -/
theorem map?_entries (m : NameMap α) :
    map? read (.object (m.entries.map fun e => (e.1, write e.2))) = some m := by
  have hentries : ((m.entries.map fun e => (e.1, write e.2)).mapM fun e => (read e.2).map (e.1, ·))
      = some m.entries := by
    refine mapM_map (fun e => ?_) m.entries
    rw [h, Option.map_some]
  rw [map?, hentries, Option.map_some, NameMap.ofList_entries]

end Json

/-! ## Values that may be refused -/

namespace Json

/-- What is read behind a value that may be refused. -/
theorem ite_some_bind {α β : Type} (c : Bool) (x : α) (f : α → Option β) :
    (if c = true then some x else none).bind f = if c = true then f x else none := by
  cases c <;> rfl

/-- Two values that may be refused are refused together. -/
theorem ite_some_bind_both {α β γ : Type} (c d : Bool) (x : α) (y : β) (f : α → β → γ) :
    ((if c = true then some x else none).bind fun x =>
        (if d = true then some y else none).bind fun y => some (f x y))
      = if (c && d) = true then some (f x y) else none := by
  cases c <;> cases d <;> rfl

/-- A list of texts is read back. -/
@[simp] theorem list?_text (texts : List String) :
    list? text? (.array (texts.map Json.string)) = some texts :=
  @list?_map String Json.string text? (fun _ => rfl) texts

theorem int64?_ofInt (n : Int) : (ofInt n).int64? = if fitsInt64 n then some n else none := rfl

@[simp] theorem nat?_ofNat (n : Nat) : (ofNat n).nat? = some n := by
  simp [ofNat, nat?]

/-- A number that is not finite is written as null, and nothing is read in its place. -/
theorem binary64?_float (x : Binary64) :
    (if x.isFinite then number (.float x) else null).binary64?
      = if x.isFinite then some x else none := by
  split <;> rfl

variable {α : Type} {write : α → Json} {read : Json → Option α} {keeps : α → Bool}

/-- **What is read back is told apart** from everything else. -/
theorem eq_of_write_eq (h : ∀ x, read (write x) = if keeps x then some x else none) {x y : α}
    (hx : keeps x = true) (hxy : write x = write y) : x = y := by
  have hread := h y
  rw [← hxy, h, if_pos hx] at hread
  split at hread
  · exact Option.some.inj hread
  · cases hread

/-- **A list is read back** if JSON keeps all of its items, and nothing is read in its place
otherwise. -/
theorem list?_map_all (h : ∀ x, read (write x) = if keeps x then some x else none) (xs : List α) :
    list? read (.array (xs.map write)) = if xs.all keeps then some xs else none := by
  show (xs.map write).mapM read = _
  induction xs with
  | nil => rfl
  | cons x xs ih =>
    rw [List.map_cons, List.mapM_cons, h, ih, List.all_cons]
    cases keeps x <;> cases xs.all keeps <;> rfl

end Json

/-! ## Members -/

namespace Json

variable {name : String} {ms : List (String × Json)}

/-- The member of a name is the first of its name. -/
@[simp] theorem member?_cons (key : String) (v : Json) :
    (object ((key, v) :: ms)).member? name
      = if name = key then some v else (object ms).member? name := by
  by_cases h : name = key
  · simp [member?, h]
  · have hne : (name == key) = false := beq_eq_false_iff_ne.mpr h
    simp [member?, List.lookup_cons, hne, h]

@[simp] theorem valuesOf_nil : valuesOf name [] = [] := rfl

@[simp] theorem valuesOf_cons (m : String × Json) :
    valuesOf name (m :: ms) = if m.1 = name then m.2 :: valuesOf name ms else valuesOf name ms := by
  rw [valuesOf, List.filterMap_cons]
  split <;> simp_all [valuesOf]

@[simp] theorem valuesOf_append (ms' : List (String × Json)) :
    valuesOf name (ms ++ ms') = valuesOf name ms ++ valuesOf name ms' := List.filterMap_append

@[simp] theorem valuesOf_optionalMember (key : String) (s : Option String) :
    valuesOf name (optionalMember key s)
      = if key = name then (s.map Json.string).toList else [] := by
  cases s <;> simp [optionalMember]

/-- **The fields of an object are found** if each of them is the only member of its
name, or there is none. -/
theorem fields?_object {names : List String} {values : List (Option Json)}
    (h : List.Forall₂ (fun name v => valuesOf name ms = Option.toList v) names values) :
    fields? names (.object ms) = some values := by
  have honce : ∀ {name : String} {v : Option Json}, valuesOf name ms = v.toList →
      once? name ms = some v := by
    intro name v hv
    rw [once?, hv]
    cases v <;> rfl
  show names.mapM (fun name => once? name ms) = some values
  induction h with
  | nil => rfl
  | cons hv _ ih =>
    rw [List.mapM_cons, honce hv, ih]
    rfl

end Json

theorem Json.withDefault?_some {α : Type} (read : Json → Option α) (default : α) (v : Json) :
    Json.withDefault? read default (some v) = read v := rfl

/-- A text that may be missing is read back. -/
theorem withDefault?_optionalText? (s : Option String) :
    Json.withDefault? Json.optionalText? none (s.map Json.string) = some s := by
  cases s <;> rfl

/-! ## Registries -/

theorem FieldType.ofJson?_name (t : FieldType) : ofJson? (.string t.name) = some t := ofName?_name t

/-- **A suggestion is read back.** -/
theorem Suggestion.ofJson?_toJson (s : Suggestion) : ofJson? s.toJson = some s := by
  have hfields :
      Json.fields? shape.names s.toJson = some [some (.string s.value), s.label.map .string] :=
    Json.fields?_object (by simp [shape, Json.Shape.names])
  rw [ofJson?, hfields]
  simp [Json.required?, Json.text?, withDefault?_optionalText?]

/-- **A field is read back.** -/
theorem FieldDef.ofJson?_toJson (f : FieldDef) : ofJson? f.toJson = some f := by
  have hfields : Json.fields? shape.names f.toJson
      = some [some (.string f.name), some (.string f.type.name), f.label.map .string,
        some (.bool f.nullable),
        if f.suggestions.isEmpty then none else some (suggestionsJson f.suggestions),
        f.model.map .string, f.defaultField.map .string] :=
    Json.fields?_object (by
      by_cases hs : f.suggestions.isEmpty = true <;> simp [shape, Json.Shape.names, hs])
  have hsuggestions : Json.withDefault? (Json.list? Suggestion.ofJson?) []
      (if f.suggestions.isEmpty then none else some (suggestionsJson f.suggestions))
        = some f.suggestions := by
    split
    · rename_i hs
      rw [List.isEmpty_iff.mp hs]
      rfl
    · exact Json.list?_map Suggestion.ofJson?_toJson f.suggestions
  simp only [ofJson?, hfields, withDefault?_optionalText?, hsuggestions, Json.required?,
    Json.withDefault?_some, Json.text?, Json.bool?, FieldType.ofJson?_name, Option.bind_eq_bind,
    Option.bind_some, Option.pure_def]

/-- **A model is read back.** -/
theorem Model.ofJson?_toJson (m : Model) : ofJson? m.toJson = some m := by
  have hfields :
      Json.fields? shape.names m.toJson = some [some (.array (m.fields.map FieldDef.toJson))] :=
    Json.fields?_object (by simp [shape, Json.Shape.names])
  simp only [ofJson?, hfields, Json.withDefault?_some, Json.list?_map FieldDef.ofJson?_toJson,
    Option.map_some]

/-- **A registry is read back.** -/
theorem Registry.ofJson?_toJson (r : Registry) : ofJson? r.toJson = some r := by
  have hfields : Json.fields? shape.names r.toJson
      = some [some (.object (r.models.entries.map fun e => (e.1, e.2.toJson)))] :=
    Json.fields?_object (by simp [shape, Json.Shape.names])
  simp only [ofJson?, hfields, Json.withDefault?_some, Json.map?_entries Model.ofJson?_toJson,
    Option.map_some]

/-! ## Introspection documents -/

/-- **The description of a field is read back**, with an empty list of suggestions or with none. -/
theorem FieldDescription.ofJson?_toJson (d : FieldDescription) : ofJson? d.toJson = some d := by
  have hfields : Json.fields? ["type", "nullable", "suggestions", "relation"] d.toJson
      = some [some (.string d.type.name), some (.bool d.nullable),
        d.suggestions.map suggestionsJson, d.relation.map .string] :=
    Json.fields?_object (by cases d.suggestions <;> simp)
  have hsuggestions :
      Json.withDefault? optionalSuggestions? none (d.suggestions.map suggestionsJson)
        = some d.suggestions := by
    cases d.suggestions with
    | none => rfl
    | some ss => exact congrArg (Option.map some) (Json.list?_map Suggestion.ofJson?_toJson ss)
  simp only [ofJson?, hfields, withDefault?_optionalText?, hsuggestions, Json.required?, Json.bool?,
    FieldType.ofJson?_name, Option.bind_eq_bind, Option.bind_some, Option.pure_def]

/-- The fields of a model are read back. -/
theorem ofJson?_descriptionsJson (fields : NameMap FieldDescription) :
    Json.map? FieldDescription.ofJson? (descriptionsJson fields) = some fields :=
  Json.map?_entries FieldDescription.ofJson?_toJson fields

/-- **A document is read back.** -/
theorem Introspection.ofJson?_toJson (d : Introspection) : ofJson? d.toJson = some d := by
  have hfields : Json.fields? ["current_model", "models"] d.toJson
      = some [some (.string d.currentModel),
        some (.object (d.models.entries.map fun e => (e.1, descriptionsJson e.2)))] :=
    Json.fields?_object (by simp)
  simp only [ofJson?, hfields, Json.required?, Json.text?,
    Json.map?_entries ofJson?_descriptionsJson, Option.bind_eq_bind, Option.bind_some,
    Option.pure_def]

/-! ## No suggestions -/

namespace Json

section

variable {name key : String} {before after : List (String × Json)} {v : Json}

/-- A member of another name does not matter. -/
theorem once?_insert_of_ne (h : key ≠ name) :
    once? name (before ++ (key, v) :: after) = once? name (before ++ after) := by
  simp [once?, h]

/-- The only member of a name is found. -/
theorem once?_insert (h : ∀ m ∈ before ++ after, m.1 ≠ name) :
    once? name (before ++ (name, v) :: after) = some (some v)
      ∧ once? name (before ++ after) = some none := by
  have hnone : valuesOf name (before ++ after) = [] :=
    List.filterMap_eq_nil_iff.mpr fun m hm => if_neg (h m hm)
  refine ⟨?_, by rw [once?, hnone]⟩
  rw [valuesOf_append, List.append_eq_nil_iff] at hnone
  simp [once?, hnone]

end

end Json

section

variable {before after : List (String × Json)} (h : ∀ m ∈ before ++ after, m.1 ≠ "suggestions")

include h

/-- **In a registry an empty list of suggestions is the same as none.** -/
theorem FieldDef.ofJson?_no_suggestions :
    FieldDef.ofJson? (.object (before ++ ("suggestions", .array []) :: after))
      = FieldDef.ofJson? (.object (before ++ after)) := by
  obtain ⟨hempty, hnone⟩ := Json.once?_insert (v := .array []) h
  have hother : ∀ name ≠ "suggestions",
      Json.once? name (before ++ ("suggestions", .array []) :: after)
        = Json.once? name (before ++ after) :=
    fun name hname => Json.once?_insert_of_ne hname.symm
  simp only [FieldDef.ofJson?, Json.fields?, shape, Json.Shape.names, List.map_cons, List.map_nil,
    List.mapM_cons, List.mapM_nil, hempty, hnone, hother "name" (by decide),
    hother "type" (by decide), hother "label" (by decide), hother "nullable" (by decide),
    hother "model" (by decide), hother "default_field" (by decide)]
  generalize Json.once? "name" _ = name
  generalize Json.once? "type" _ = type
  generalize Json.once? "label" _ = label
  generalize Json.once? "nullable" _ = nullable
  generalize Json.once? "model" _ = model
  generalize Json.once? "default_field" _ = defaultField
  cases name <;> cases type <;> cases label <;> cases nullable <;> cases model
    <;> cases defaultField <;> rfl

/-- **In a document an empty list of suggestions is more than none.** -/
theorem FieldDescription.ofJson?_no_suggestions :
    (FieldDescription.ofJson? (.object (before ++ ("suggestions", .array []) :: after))
        = (FieldDescription.ofJson? (.object (before ++ after))).map fun d =>
          { d with suggestions := some [] })
      ∧ ∀ d, FieldDescription.ofJson? (.object (before ++ after)) = some d →
        d.suggestions = none := by
  obtain ⟨hempty, hnone⟩ := Json.once?_insert (v := .array []) h
  have hother : ∀ name ≠ "suggestions",
      Json.once? name (before ++ ("suggestions", .array []) :: after)
        = Json.once? name (before ++ after) :=
    fun name hname => Json.once?_insert_of_ne hname.symm
  simp only [FieldDescription.ofJson?, Json.fields?, List.mapM_cons, List.mapM_nil, hempty, hnone,
    hother "type" (by decide), hother "nullable" (by decide), hother "relation" (by decide)]
  generalize Json.once? "type" _ = type
  generalize Json.once? "nullable" _ = nullable
  generalize Json.once? "relation" _ = relation
  cases type <;> cases nullable <;> cases relation
  case some.some.some type nullable relation =>
    have hread :
        Json.withDefault? optionalSuggestions? none (some (.array [])) = some (some []) := rfl
    have hdefault : Json.withDefault? optionalSuggestions? none none = some none := rfl
    simp only [Option.bind_eq_bind, Option.pure_def, Option.bind_some, hread, hdefault]
    generalize Json.required? FieldType.ofJson? _ = type
    generalize Json.required? Json.bool? _ = nullable
    generalize Json.withDefault? Json.optionalText? none _ = relation
    cases type <;> cases nullable <;> cases relation <;> simp +contextual [eq_comm]
  all_goals exact ⟨rfl, fun _ h => by cases h⟩

end

/-! ## Both forms -/

/-- **Registries and documents survive serialization.** What is written is read back, so that what
is read, written and read again is written alike. An empty list of suggestions that stands in a
field is no more than none in a registry; in a document it is read as an empty list, where none is
read as none, and the two are written in two ways. -/
theorem serialization_survives :
    (∀ r : Registry, Registry.ofJson? r.toJson = some r)
    ∧ (∀ v r, Registry.ofJson? v = some r →
        (Registry.ofJson? r.toJson).map Registry.toJson = some r.toJson)
    ∧ (∀ d : Introspection, Introspection.ofJson? d.toJson = some d)
    ∧ (∀ v d, Introspection.ofJson? v = some d →
        (Introspection.ofJson? d.toJson).map Introspection.toJson = some d.toJson)
    ∧ (∀ before after : List (String × Json), (∀ m ∈ before ++ after, m.1 ≠ "suggestions") →
        FieldDef.ofJson? (.object (before ++ ("suggestions", .array []) :: after))
            = FieldDef.ofJson? (.object (before ++ after))
          ∧ (FieldDescription.ofJson? (.object (before ++ ("suggestions", .array []) :: after))
              = (FieldDescription.ofJson? (.object (before ++ after))).map fun d =>
                { d with suggestions := some [] })
          ∧ ∀ d, FieldDescription.ofJson? (.object (before ++ after)) = some d →
              d.suggestions = none)
    ∧ ∀ d : FieldDescription,
        { d with suggestions := some [] }.toJson ≠ { d with suggestions := none }.toJson := by
  refine ⟨Registry.ofJson?_toJson, fun v r _ => ?_, Introspection.ofJson?_toJson, fun v d _ => ?_,
    fun before after h => ?_, fun d hsame => ?_⟩
  · rw [Registry.ofJson?_toJson, Option.map_some]
  · rw [Introspection.ofJson?_toJson, Option.map_some]
  · exact ⟨FieldDef.ofJson?_no_suggestions h, FieldDescription.ofJson?_no_suggestions h⟩
  · have hread := congrArg FieldDescription.ofJson? hsame
    rw [FieldDescription.ofJson?_toJson, FieldDescription.ofJson?_toJson] at hread
    cases hread

/-- A choice without values, in a registry and in a document. -/
theorem serialization_survives_choice :
    let field :=
      [("name", Json.string "status"), ("type", .string "choice"), ("nullable", .bool false)]
    let empty := ("suggestions", Json.array [])
    let v :=
      Json.object
        [("models",
          .object [("post", .object [("fields", .array [.object (field ++ [empty])])])])]
    let w := Json.object [("current_model", .string "post"),
      ("models", .object [("post", .object [("status", .object (field ++ [empty]))])])]
    let r := Registry.empty.withModel "post" ⟨[FieldDef.choice "status" []]⟩
    let d : Introspection :=
      ⟨"post",
        NameMap.empty.insert "post"
          (NameMap.empty.insert "status" ⟨.choice, false, some [], none⟩)⟩
    Registry.ofJson? v = some r ∧ Introspection.ofJson? w = some d
      ∧ (Registry.ofJson? r.toJson).map Registry.toJson = some r.toJson
      ∧ (Introspection.ofJson? d.toJson).map Introspection.toJson = some d.toJson
      ∧ (∀ m ∈ field, m.1 ≠ "suggestions")
      ∧ FieldDef.ofJson? (.object (field ++ [empty])) = FieldDef.ofJson? (.object field)
      ∧ FieldDescription.ofJson? (.object (field ++ [empty]))
        = (FieldDescription.ofJson? (.object field)).map fun d =>
          { d with suggestions := some [] } := by
  intro field empty v w r d
  obtain ⟨-, registry, -, document, parts, -⟩ := serialization_survives
  have hr : Registry.ofJson? v = some r := by decide
  have hd : Introspection.ofJson? w = some d := by decide
  have hfield : ∀ m ∈ field, m.1 ≠ "suggestions" := by simp [field]
  have hparts := parts field [] (by simpa using hfield)
  rw [List.append_nil] at hparts
  exact ⟨hr, hd, registry v r hr, document w d hd, hfield, hparts.1, hparts.2.1⟩

end RecordQuery
