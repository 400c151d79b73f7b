import Mathlib.Data.List.Basic

/-!
# Slices of a text

`(text.take stop).drop start` is the part of a text from character number `start` to just before
number `stop`. A text is a list of characters or of bytes.
-/

namespace ScriptedMarkup.Text

variable {α : Type} {c : α} {text word : List α} {start stop : Nat}

theorem slice_append_drop (forward : start ≤ stop) (text : List α) :
    (text.take stop).drop start ++ text.drop stop = text.drop start := by
  have rest : text.drop stop = (text.drop start).drop (stop - start) := by
    rw [List.drop_drop]
    congr 1
    omega
  rw [List.drop_take, rest, List.take_append_drop]

theorem length_slice (within : stop ≤ text.length) :
    ((text.take stop).drop start).length = stop - start := by
  rw [List.length_drop, List.length_take, Nat.min_eq_left within]

theorem getElem?_of_mem_slice (member : c ∈ (text.take stop).drop start) :
    ∃ i, start ≤ i ∧ i < stop ∧ text[i]? = some c := by
  obtain ⟨k, found⟩ := List.mem_iff_getElem?.1 member
  rw [List.getElem?_drop] at found
  have inside : start + k < (text.take stop).length := by
    by_contra outside
    rw [List.getElem?_eq_none (Nat.le_of_not_lt outside)] at found
    exact nomatch found
  have below : start + k < stop := Nat.lt_of_lt_of_le inside (List.length_take_le stop text)
  rw [List.getElem?_take_of_lt below] at found
  exact ⟨start + k, Nat.le_add_right _ _, below, found⟩

theorem mem_slice_of_getElem? {i : Nat} (past : start ≤ i) (below : i < stop)
    (found : text[i]? = some c) : c ∈ (text.take stop).drop start := by
  refine List.mem_iff_getElem?.2 ⟨i - start, ?_⟩
  rw [List.getElem?_drop, Nat.add_sub_cancel' past, List.getElem?_take_of_lt below, found]

/-- What comes after a word. -/
theorem append_drop_of_prefix (stands : word <+: text.drop start) :
    word ++ text.drop (start + word.length) = text.drop start := by
  obtain ⟨rest, split⟩ := stands
  rw [← List.drop_drop, ← split, List.drop_left]

theorem drop_length_add {front rest : List α} (split : text.drop start = front ++ rest) :
    text.drop (start + front.length) = rest := by
  rw [← List.drop_drop, split, List.drop_left]

end ScriptedMarkup.Text
