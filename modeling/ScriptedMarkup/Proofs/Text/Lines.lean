import ScriptedMarkup.Text.Lines

/-!
# Lines and line feeds

A line feed ends a line, whatever comes before and after it (`lines_append_feed`). So a text has one
line more than line feeds (`length_lines`), and the line between two of them is the one with the
number of line feeds before it (`getElem?_splitLines`).
-/

namespace ScriptedMarkup.Text

theorem splitLines_append_feed (first second : List Char) :
    splitLines (first ++ '\n' :: second) = splitLines first ++ splitLines second := by
  induction first with
  | nil => simp [splitLines]
  | cons c first ih =>
    obtain ⟨line, more, found⟩ := List.exists_cons_of_ne_nil (splitLines_ne_nil first)
    rw [List.cons_append, splitLines, splitLines, ih, found]
    split <;> rfl

theorem lines_append_feed (first second : List Char) :
    lines (first ++ '\n' :: second) = lines first ++ lines second := by
  rw [lines, splitLines_append_feed, List.map_append]
  rfl

theorem length_splitLines (text : List Char) : (splitLines text).length = text.count '\n' + 1 := by
  induction text with
  | nil => rfl
  | cons c rest ih =>
    by_cases feed : c = '\n'
    · subst feed
      rw [splitLines, if_pos rfl, List.length_cons, ih, List.count_cons_self]
    · rw [splitLines, if_neg feed, List.length_modifyHead, ih, List.count_cons_of_ne feed]

theorem length_lines (text : List Char) : (lines text).length = text.count '\n' + 1 := by
  rw [lines, List.length_map, length_splitLines]

theorem splitLines_of_not_mem {text : List Char} (lined : '\n' ∉ text) : splitLines text = [text] := by
  induction text with
  | nil => rfl
  | cons c rest ih =>
    have other : c ≠ '\n' := (List.ne_of_not_mem_cons lined).symm
    rw [splitLines, if_neg other, ih (List.not_mem_of_not_mem_cons lined)]
    rfl

theorem getElem?_splitLines {line : List Char} (lined : '\n' ∉ line) (front back : List Char) :
    (splitLines (front ++ '\n' :: (line ++ '\n' :: back)))[front.count '\n' + 1]? = some line := by
  rw [splitLines_append_feed, splitLines_append_feed, splitLines_of_not_mem lined,
    ← length_splitLines, List.getElem?_append_right (Nat.le_refl _), Nat.sub_self]
  rfl

end ScriptedMarkup.Text
