/-!
# Names at the front of a text

`name?` splits off the longest name at the front of a text. `append_of_name?` shows that it loses
nothing and `suffix_of_name?` that it leaves a shorter end of the text.
-/

namespace ScriptedMarkup.Text

/-- The longest name at the front of a text and what is left. A name has one character that
`starts` allows, and after it as many as `continues` allows. -/
def name? (starts continues : Char → Bool) : List Char → Option (List Char × List Char)
  | [] => none
  | c :: rest =>
    if starts c then some (c :: rest.takeWhile continues, rest.dropWhile continues) else none

theorem append_of_name? {starts continues : Char → Bool} {text name rest : List Char}
    (h : name? starts continues text = some (name, rest)) : name ++ rest = text := by
  cases text with
  | nil => simp [name?] at h
  | cons c text =>
    simp only [name?] at h
    split at h
    · simp only [Option.some.injEq, Prod.mk.injEq] at h
      obtain ⟨rfl, rfl⟩ := h
      simp
    · simp at h

theorem ne_nil_of_name? {starts continues : Char → Bool} {text name rest : List Char}
    (h : name? starts continues text = some (name, rest)) : name ≠ [] := by
  cases text with
  | nil => simp [name?] at h
  | cons c text =>
    simp only [name?] at h
    split at h
    · simp only [Option.some.injEq, Prod.mk.injEq] at h
      simp [← h.1]
    · simp at h

theorem suffix_of_name? {starts continues : Char → Bool} {text name rest : List Char}
    (h : name? starts continues text = some (name, rest)) :
    rest <:+ text ∧ rest.length < text.length := by
  have whole := append_of_name? h
  have := List.length_pos_iff.2 (ne_nil_of_name? h)
  refine ⟨⟨name, whole⟩, ?_⟩
  rw [← whole, List.length_append]
  omega

end ScriptedMarkup.Text
