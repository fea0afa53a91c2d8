import Mathlib.Data.List.TakeWhile
import RecordQuery.Report.Caret

/-!
# The caret stands under its place

A text is cut in three: what comes before a line, the line, and what follows it (`IsLine`). The
line that is shown for an offset is cut so that what comes before it and the characters before the
caret are together as many as the offset says, or as many as the text has
(`exists_isLine_locate`). Where the recursion drops a line with its break, these go over to the
part before (`IsLine.behind`).
-/

namespace RecordQuery

/-! ## Lines -/

/-- **A line of a text**, with what comes before and after it: breaks stand at both ends of it,
or the text ends there. -/
structure IsLine (text before line after : List Char) : Prop where
  /-- Nothing of the text is lost. -/
  text_eq : text = before ++ line ++ after
  /-- The line begins behind a break or where the text begins. -/
  begins : before = [] ∨ before.getLast? = some '\n'
  /-- The line ends at a break or where the text ends. -/
  ends : after = [] ∨ after.head? = some '\n'
  /-- There is no break in the line. -/
  unbroken : '\n' ∉ line

/-- The text in front of the first break is a line. -/
theorem isLine_first (text : List Char) :
    IsLine text [] (text.takeWhile (· ≠ '\n')) (text.dropWhile (· ≠ '\n')) where
  text_eq := List.takeWhile_append_dropWhile.symm
  begins := .inl rfl
  ends := by
    have hhead := List.head?_dropWhile_not (· ≠ '\n') text
    cases hrest : text.dropWhile (· ≠ '\n') with
    | nil => exact .inl rfl
    | cons c rest =>
      rw [hrest] at hhead
      exact .inr (by simpa using hhead)
  unbroken := fun hmem => by simpa using List.mem_takeWhile_imp hmem

/-- **A line of what follows a break is a line of the text.** -/
theorem IsLine.behind {text before line after : List Char} (h : IsLine text before line after)
    (first : List Char) : IsLine (first ++ '\n' :: text) (first ++ '\n' :: before) line after where
  text_eq := by simp [h.text_eq]
  begins := by
    rcases h.begins with rfl | hlast
    · exact .inr (by simp)
    · exact .inr (by simp [List.getLast?_append, List.getLast?_cons, hlast])
  ends := h.ends
  unbroken := h.unbroken

/-! ## The place of an offset -/

namespace Caret

/-- **The caret stands in a line of the text, as far behind the text's beginning as the offset
says**, or where the text ends. -/
theorem exists_isLine_locate (offset : Nat) (text : List Char) :
    ∃ before after, IsLine text before (locate offset text).line after
      ∧ before.length + (locate offset text).column = min offset text.length
      ∧ (locate offset text).column ≤ (locate offset text).line.length := by
  fun_induction locate offset text with
  | case1 offset text line hrest =>
    have htext : text = line := by
      have hcut : line ++ text.dropWhile (· ≠ '\n') = text := List.takeWhile_append_dropWhile
      rw [← hcut, hrest, List.append_nil]
    refine ⟨[], _, isLine_first text, ?_, Nat.min_le_right _ _⟩
    rw [List.length_nil, Nat.zero_add, htext]
  | case2 offset text line c rest hrest hle =>
    have hlength : line.length ≤ text.length := (List.takeWhile_sublist _).length_le
    refine ⟨[], _, isLine_first text, ?_, hle⟩
    rw [List.length_nil, Nat.zero_add, Nat.min_eq_left (hle.trans hlength)]
  | case3 offset text line c rest hrest hgt ih =>
    obtain ⟨before, after, hline, hoffset, hcolumn⟩ := ih
    -- what is behind the line begins with a break
    have htext : text = line ++ '\n' :: rest := by
      have hfirst : IsLine text [] line (c :: rest) := hrest ▸ isLine_first text
      obtain rfl : c = '\n' := by simpa using hfirst.ends
      exact hfirst.text_eq
    refine ⟨line ++ '\n' :: before, after, htext ▸ hline.behind line, ?_, hcolumn⟩
    rw [htext, List.length_append, List.length_append, List.length_cons, List.length_cons]
    omega

/-- The pad has a tab under every tab in front of the caret, and a space under every other
character. -/
theorem getElem?_pad (c : Caret) {i : Nat} (hi : i < c.column)
    (hcolumn : c.column ≤ c.line.length) :
    c.pad[i]? = some (if c.line[i]? = some '\t' then '\t' else ' ') := by
  have hline : i < c.line.length := Nat.lt_of_lt_of_le hi hcolumn
  rw [pad, List.getElem?_map, List.getElem?_take_of_lt hi, List.getElem?_eq_getElem hline]
  simp [padChar]

end Caret

/-- **The line of an offset is shown with a caret under the offset's place**: in front of
the caret there are as many characters as between the beginning of the line and the
offset, or the end of the query if the offset lies behind it, each of them a tab under a
tab and a space otherwise. -/
theorem renderCaret_under (query : String) (offset : Nat) :
    ∃ before shown after pad : List Char,
      IsLine query.toList before shown after
      ∧ renderCaret query offset false
        = "  " ++ String.ofList shown ++ "\n" ++ "  " ++ String.ofList pad ++ "^"
      ∧ before.length + pad.length = min offset query.length
      ∧ pad.length ≤ shown.length
      ∧ ∀ i < pad.length, pad[i]? = some (if shown[i]? = some '\t' then '\t' else ' ') := by
  obtain ⟨before, after, hline, hoffset, hcolumn⟩ := Caret.exists_isLine_locate offset query.toList
  set c := Caret.locate offset query.toList with hc
  have hpad : c.pad.length = c.column := by
    rw [Caret.pad, List.length_map, List.length_take, Nat.min_eq_left hcolumn]
  refine ⟨before, c.line, after, c.pad, hline, ?_, ?_, ?_, fun i hi => ?_⟩
  · simp [renderCaret, Caret.render, Style.apply, hc, String.append_assoc]
  · rw [hpad, hoffset, String.length_toList]
  · rwa [hpad]
  · exact c.getElem?_pad (hpad ▸ hi) hcolumn

end RecordQuery
