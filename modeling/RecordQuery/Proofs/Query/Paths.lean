import RecordQuery.Query.Expr

/-!
# Paths and their texts

A path is written with points between its names. A text says which path it writes, by cutting it
at its points (`splitPoints`), so no two paths of names without points share a text
(`dotted_injective`). A single name may hold a point: then the text writes another, longer path.
-/

namespace RecordQuery

/-- **The names between the points of a text.** -/
def splitPoints (s : String) : List String := (s.toList.splitOn '.').map String.ofList

theorem toList_dotted (names : List String) :
    (dotted names).toList = ['.'].intercalate (names.map String.toList) := by
  unfold dotted
  rw [String.toList_intercalate]
  rfl

@[simp] theorem splitPoints_ne_nil (s : String) : splitPoints s ≠ [] := by
  unfold splitPoints
  rw [ne_eq, List.map_eq_nil_iff]
  exact List.splitOn_ne_nil '.' s.toList

/-- **A text writes the path that it is cut into.** -/
@[simp] theorem dotted_splitPoints (s : String) : dotted (splitPoints s) = s := by
  refine String.ext ?_
  rw [toList_dotted]
  unfold splitPoints
  rw [List.map_map]
  have hid : String.toList ∘ String.ofList = id := funext fun cs => String.toList_ofList
  rw [hid, List.map_id, List.intercalate_splitOn]

/-- **A path of names without points is what its text is cut into.** -/
theorem splitPoints_dotted {names : List String} (hne : names ≠ [])
    (hnames : ∀ n ∈ names, '.' ∉ n.toList) : splitPoints (dotted names) = names := by
  unfold splitPoints
  rw [toList_dotted, List.splitOn_intercalate '.' ?_ (by simpa using hne), List.map_map]
  · have hid : String.ofList ∘ String.toList = id := funext fun s => String.ofList_toList
    rw [hid, List.map_id]
  · intro cs hcs
    obtain ⟨n, hn, rfl⟩ := List.mem_map.mp hcs
    exact hnames n hn

/-- **Paths of names without points have different texts.** -/
theorem dotted_injective {names names' : List String} (hne : names ≠ []) (hne' : names' ≠ [])
    (hnames : ∀ n ∈ names, '.' ∉ n.toList) (hnames' : ∀ n ∈ names', '.' ∉ n.toList)
    (h : dotted names = dotted names') : names = names' := by
  rw [← splitPoints_dotted hne hnames, h, splitPoints_dotted hne' hnames']

/-- One name more is written after one point more. -/
theorem dotted_append_singleton {names : List String} (hne : names ≠ []) (n : String) :
    dotted (names ++ [n]) = dotted names ++ "." ++ n := by
  unfold dotted
  rw [String.intercalate_append_of_ne_nil hne (List.cons_ne_nil n []), String.intercalate_singleton]

/-- A text and a name behind a point write one name more. -/
theorem splitPoints_append_point {text name : String}
    (htext : ∀ n ∈ splitPoints text, '.' ∉ n.toList) (hname : '.' ∉ name.toList) :
    splitPoints (text ++ "." ++ name) = splitPoints text ++ [name] := by
  have hjoin : text ++ "." ++ name = dotted (splitPoints text ++ [name]) := by
    rw [dotted_append_singleton (splitPoints_ne_nil text), dotted_splitPoints]
  rw [hjoin]
  exact splitPoints_dotted (by simp)
    (List.forall_mem_append.mpr ⟨htext, List.forall_mem_singleton.mpr hname⟩)

end RecordQuery
