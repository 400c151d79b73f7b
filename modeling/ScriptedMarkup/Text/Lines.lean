/-!
# Lines

`lines` splits a text on line feeds and drops one carriage return from the end of each line.
There is always at least one line (`lines_ne_nil`). Splitting loses nothing but the line feeds
(`intercalate_splitLines`), and finds all of them (`not_mem_of_mem_splitLines`).
-/

namespace ScriptedMarkup.Text

/-- Drops `c` from the end of a text, if it is there. -/
def dropFinal (c : Char) (text : List Char) : List Char :=
  if text.getLast? = some c then text.dropLast else text

/-- The parts of a text between its line feeds. -/
def splitLines : List Char → List (List Char)
  | [] => [[]]
  | c :: rest =>
    if c = '\n' then [] :: splitLines rest else (splitLines rest).modifyHead (c :: ·)

/-- The lines of a text, each without its line end. -/
def lines (text : List Char) : List (List Char) :=
  (splitLines text).map (dropFinal '\r')

theorem dropFinal_cons {c d : Char} {rest : List Char} (more : rest ≠ []) :
    dropFinal c (d :: rest) = d :: dropFinal c rest := by
  obtain ⟨first, rest, rfl⟩ := List.exists_cons_of_ne_nil more
  unfold dropFinal
  rw [List.getLast?_cons_cons]
  split <;> rfl

theorem splitLines_ne_nil (text : List Char) : splitLines text ≠ [] := by
  induction text with
  | nil => simp [splitLines]
  | cons c rest ih =>
    unfold splitLines
    split
    · simp
    · simpa using ih

theorem not_mem_of_mem_splitLines {text line : List Char} (h : line ∈ splitLines text) :
    '\n' ∉ line := by
  induction text generalizing line with
  | nil => simp_all [splitLines]
  | cons c rest ih =>
    unfold splitLines at h
    split at h
    · rcases List.mem_cons.1 h with rfl | h
      · simp
      · exact ih h
    · next other =>
      obtain ⟨first, more, found⟩ := List.exists_cons_of_ne_nil (splitLines_ne_nil rest)
      rw [found] at h ih
      rcases List.mem_cons.1 h with rfl | h
      · simpa [Ne.symm other] using ih List.mem_cons_self
      · exact ih (List.mem_cons_of_mem _ h)

theorem intercalate_splitLines (text : List Char) :
    ['\n'].intercalate (splitLines text) = text := by
  induction text with
  | nil => rfl
  | cons c rest ih =>
    obtain ⟨first, more, found⟩ := List.exists_cons_of_ne_nil (splitLines_ne_nil rest)
    rw [found] at ih
    unfold splitLines
    rw [found]
    split
    · next same => simp [same, ← ih]
    · cases more <;> simp_all

theorem lines_ne_nil (text : List Char) : lines text ≠ [] := by
  simp [lines, splitLines_ne_nil]

theorem not_mem_of_mem_lines {text line : List Char} (member : line ∈ lines text) :
    '\n' ∉ line := by
  obtain ⟨whole, found, rfl⟩ := List.mem_map.1 member
  have lined := not_mem_of_mem_splitLines found
  unfold dropFinal
  split
  · exact fun inside => lined (List.dropLast_subset _ inside)
  · exact lined

end ScriptedMarkup.Text
