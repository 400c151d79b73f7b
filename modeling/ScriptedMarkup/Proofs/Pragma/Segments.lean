import ScriptedMarkup.Pragma.Extraction

/-!
# Segments of a source

What the parts of a source are, one after another: a character where no pragma can be read
(`segments_cons`), and a pragma with its spelling where one can (`segments_append`). The attributes of
a pragma are read one after another in the same way. A pragma has the place at which its spelling
starts (`getElem?_found`). What is left without the pragmas is made of characters of the source
(`erase_subset`).
-/

namespace ScriptedMarkup

namespace Segment

def pragma? : Segment → Option Pragma
  | .char _ => none
  | .pragma found _ => some found

theorem kept?_eq_some_iff {segment : Segment} {c : Char} :
    segment.kept? = some c ↔ segment = .char c := by
  cases segment <;> simp [kept?]

theorem kept_chars (text : List Char) : (text.map char).filterMap kept? = text := by
  induction text with
  | nil => rfl
  | cons c text ih => simp [kept?, ih]

theorem pragma?_chars (text : List Char) : (text.map char).filterMap pragma? = [] := by
  rw [List.filterMap_eq_nil_iff]
  intro segment member
  obtain ⟨c, -, rfl⟩ := List.mem_map.1 member
  rfl

theorem spelling_chars (text : List Char) : (text.map char).flatMap spelling = text := by
  induction text with
  | nil => rfl
  | cons c text ih =>
    rw [List.map_cons, List.flatMap_cons, ih]
    rfl

/-- Characters that are kept one after another stand together, or there is a pragma among them. -/
theorem chars_of_kept {segments : List Segment} {text back : List Char}
    (kept : segments.filterMap kept? = text ++ back) :
    (∃ after, segments = text.map char ++ after) ∨
      ∃ (first : List Char) (pragma : Pragma) (spelling : List Char) (after : List Segment),
        segments = first.map char ++ .pragma pragma spelling :: after ∧
          first.length < text.length := by
  induction text generalizing segments with
  | nil => exact .inl ⟨segments, rfl⟩
  | cons c text ih =>
    cases segments with
    | nil => simp at kept
    | cons segment segments =>
      cases segment with
      | pragma pragma spelling => exact .inr ⟨[], pragma, spelling, segments, rfl, Nat.succ_pos _⟩
      | char d =>
        obtain ⟨rfl, rest⟩ := List.cons.inj kept
        obtain ⟨after, rfl⟩ | ⟨first, pragma, spelling, after, rfl, shorter⟩ := ih rest
        · exact .inl ⟨after, rfl⟩
        · exact .inr ⟨d :: first, pragma, spelling, after, rfl, Nat.succ_lt_succ shorter⟩

/-- Characters of what is left stand together in the source, or a pragma was taken out from between
them. -/
theorem together_or_pragma {segments : List Segment} {front text back : List Char}
    (nonempty : text ≠ []) (kept : segments.filterMap kept? = front ++ text ++ back) :
    (∃ before after, segments = before ++ (text.map char ++ after)) ∨
      ∃ before pragma spelling after, segments = before ++ .pragma pragma spelling :: after ∧
        front.length < (before.filterMap kept?).length ∧
        (before.filterMap kept?).length < front.length + text.length := by
  obtain ⟨c, text, rfl⟩ := List.exists_cons_of_ne_nil nonempty
  rw [List.append_assoc, List.filterMap_eq_append_iff] at kept
  obtain ⟨before, tail, rfl, rfl, kept⟩ := kept
  rw [List.cons_append, List.filterMap_eq_cons_iff] at kept
  obtain ⟨skipped, segment, rest, rfl, pragmas, found, kept⟩ := kept
  obtain rfl := kept?_eq_some_iff.1 found
  have unkept : skipped.filterMap kept? = [] := List.filterMap_eq_nil_iff.2 pragmas
  obtain ⟨after, rfl⟩ | ⟨first, pragma, spelling, after, rfl, shorter⟩ := chars_of_kept kept
  · exact .inl ⟨before ++ skipped, after, by simp⟩
  · refine .inr ⟨before ++ skipped ++ (c :: first).map char, pragma, spelling, after, by simp, ?_⟩
    rw [List.filterMap_append, List.filterMap_append, unkept, kept_chars]
    simp only [List.length_append, List.length_nil, List.length_cons]
    omega

end Segment

namespace Pragma

theorem read?_eq_none {text : List Char} (unopened : ∀ rest, text ≠ '<' :: '?' :: rest) :
    read? text = none := by
  unfold read?
  split
  · next rest => exact absurd rfl (unopened rest)
  · rfl

theorem read?_cons {c : Char} (other : c ≠ '<') (rest : List Char) : read? (c :: rest) = none :=
  read?_eq_none fun _ front => other (List.cons.inj front).1

/-! ### Attributes one after another -/

theorem readAttributes_of_not_isBlank {c : Char} (solid : ¬Text.isBlank c = true) (rest : List Char) :
    readAttributes (c :: rest) = ([], c :: rest) := by
  rw [readAttributes.eq_def]
  simp only [if_neg solid]

theorem readAttributes_of_unread {c : Char} {rest : List Char} (blank : Text.isBlank c = true)
    (unread : readAttribute? (skipBlanks rest) = none) :
    readAttributes (c :: rest) = ([], c :: rest) := by
  rw [readAttributes.eq_def]
  simp only [if_pos blank]
  split
  · rfl
  · next found => simp [unread] at found

theorem readAttributes_of_read {c : Char} {rest after : List Char} {written : String × String}
    (blank : Text.isBlank c = true) (read : readAttribute? (skipBlanks rest) = some (written, after)) :
    readAttributes (c :: rest) =
      (written :: (readAttributes after).1, (readAttributes after).2) := by
  rw [readAttributes.eq_def]
  simp only [if_pos blank]
  split
  · next unread => simp [read] at unread
  · next found =>
    rw [read] at found
    obtain ⟨rfl, rfl⟩ := Prod.mk.inj (Option.some.inj found)
    rfl

/-! ### Parts one after another -/

theorem segments_cons {c : Char} {rest : List Char} (unread : read? (c :: rest) = none) :
    segments (c :: rest) = .char c :: segments rest := by
  rw [segments]
  split
  · next found => simp [unread] at found
  · rfl

theorem segments_of_read {text rest : List Char} {pragma : Pragma}
    (read : read? text = some (pragma, rest)) :
    segments text = .pragma pragma (text.take (text.length - rest.length)) :: segments rest := by
  rw [segments]
  split
  · next found =>
    rw [read] at found
    obtain ⟨rfl, rfl⟩ := Prod.mk.inj (Option.some.inj found)
    rfl
  · next found => simp [read] at found

/-- A pragma is spelled by all that is read of it. -/
theorem segments_append {spelling rest : List Char} {pragma : Pragma}
    (read : read? (spelling ++ rest) = some (pragma, rest)) :
    segments (spelling ++ rest) = .pragma pragma spelling :: segments rest := by
  rw [segments_of_read read, List.length_append, Nat.add_sub_cancel, List.take_left]

/-! ### Places -/

theorem offsets_append (offset : Nat) (before after : List Segment) :
    offsets offset (before ++ after) =
      offsets offset before ++
        offsets (offset + (Text.bytes (before.flatMap Segment.spelling)).length) after := by
  induction before generalizing offset with
  | nil => rfl
  | cons segment before ih =>
    have width : offset + (Text.bytes segment.spelling).length +
        (Text.bytes (before.flatMap Segment.spelling)).length =
          offset + (Text.bytes ((segment :: before).flatMap Segment.spelling)).length := by
      rw [List.flatMap_cons, Text.bytes_append, List.length_append, Nat.add_assoc]
    cases segment <;> simp only [List.cons_append, offsets, ih, width]

theorem map_fst_offsets (offset : Nat) (segments : List Segment) :
    (offsets offset segments).map (·.1) = segments.filterMap Segment.pragma? := by
  induction segments generalizing offset with
  | nil => rfl
  | cons segment rest ih => cases segment <;> simp [offsets, List.filterMap_cons, Segment.pragma?, ih]

theorem map_pragma_found (source : List Char) :
    (found source).map (·.pragma) = (segments source).filterMap Segment.pragma? := by
  rw [found, List.map_map, ← map_fst_offsets 0]
  rfl

/-- A pragma comes after those of the segments before it, and is placed where they end. -/
theorem getElem?_found {source spelling : List Char} {before after : List Segment} {pragma : Pragma}
    (parts : segments source = before ++ .pragma pragma spelling :: after) :
    (found source)[(before.filterMap Segment.pragma?).length]? =
      some { pragma, place := .ofOffset source (Text.bytes (before.flatMap Segment.spelling)).length } := by
  have counted : (offsets 0 before).length = (before.filterMap Segment.pragma?).length := by
    rw [← map_fst_offsets 0, List.length_map]
  rw [found, parts, offsets_append, ← counted, List.getElem?_map,
    List.getElem?_append_right (Nat.le_refl _), Nat.sub_self, Nat.zero_add]
  rfl

theorem erase_subset (text : List Char) : erase text ⊆ text := by
  unfold erase
  fun_induction segments text with
  | case1 text pragma rest read ih =>
    intro c member
    exact (suffix_of_read? read).1.subset (ih member)
  | case2 => simp
  | case3 c rest read ih =>
    intro d member
    rcases List.mem_cons.1 member with rfl | member
    · exact List.mem_cons_self
    · exact List.mem_cons_of_mem _ (ih member)

end Pragma

end ScriptedMarkup
