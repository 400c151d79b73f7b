import ScriptedMarkup.Proofs.Pragma.Segments
import ScriptedMarkup.Proofs.Text.Returns

/-!
# Carriage returns and pragmas

Carriage returns before the line feeds of a text stay within what is read of it: a pragma has them
in its values (`read?_returned`), and what is left without pragmas has them too (`erase_returned`).
-/

namespace ScriptedMarkup

open Text (returned withReturns)

namespace Pragma

def mapValues (change : String → String) (pragma : Pragma) : Pragma where
  tag := pragma.tag
  attributes := pragma.attributes.map (Prod.map id change)

theorem mapValues_mapValues (first second : String → String) (pragma : Pragma) :
    (pragma.mapValues first).mapValues second = pragma.mapValues (second ∘ first) := by
  simp [mapValues, Function.comp_def]

theorem lookup_map (change : String → String) (name : String)
    (attributes : List (String × String)) :
    (attributes.map (Prod.map id change)).lookup name = (attributes.lookup name).map change := by
  induction attributes with
  | nil => rfl
  | cons written more ih =>
    obtain ⟨first, value⟩ := written
    simp only [List.map_cons, Prod.map, id, List.lookup_cons, ih]
    split <;> rfl

theorem value?_mapValues (change : String → String) (pragma : Pragma) (name : String) :
    (pragma.mapValues change).value? name = (pragma.value? name).map change := by
  rw [value?, mapValues, ← List.map_reverse, lookup_map]
  rfl

theorem parameter?_mapValues (change : String → String) (pragma : Pragma) :
    (pragma.mapValues change).parameter? = pragma.parameter?.map change := by
  unfold parameter?
  rw [value?_mapValues]
  show (if pragma.tag = "param" then _ else _) = _
  split <;> rfl

theorem filterMap_parameter?_mapValues (change : String → String) (pragmas : List Pragma) :
    (pragmas.map (mapValues change)).filterMap parameter? =
      (pragmas.filterMap parameter?).map change := by
  rw [List.filterMap_map, List.map_filterMap]
  exact congrArg (List.filterMap · pragmas) (funext (parameter?_mapValues change))

/-! ### Reading -/

theorem skipBlanks_returned (text : List Char) :
    skipBlanks (returned text) = returned (skipBlanks text) :=
  Text.dropWhile_returned rfl text

theorem readValue?_returned (text : List Char) :
    readValue? (returned text) =
      (readValue? text).map fun (value, rest) => (returned value, returned rest) := by
  cases text with
  | nil => rfl
  | cons quote rest =>
    by_cases quoted : quote = '"' ∨ quote = '\''
    · have apart : quote ≠ '\n' := by rcases quoted with rfl | rfl <;> decide
      have same : ('\r' != quote) = ('\n' != quote) := by rcases quoted with rfl | rfl <;> rfl
      rw [Text.returned_cons apart, readValue?, readValue?, if_pos quoted, if_pos quoted,
        Text.takeWhile_returned same, Text.dropWhile_returned same]
      have closing := List.head?_dropWhile_not (· != quote) rest
      cases found : rest.dropWhile (· != quote) with
      | nil => rfl
      | cons last after =>
        have last_eq : last = quote := by simpa [found] using closing
        rw [last_eq, Text.returned_cons apart]
        rfl
    · by_cases feed : quote = '\n'
      · subst feed
        rfl
      · rw [Text.returned_cons feed, readValue?, readValue?, if_neg quoted, if_neg quoted]
        rfl

theorem readAttribute?_returned (text : List Char) :
    readAttribute? (returned text) =
      (readAttribute? text).map fun (written, rest) =>
        (Prod.map id withReturns written, returned rest) := by
  unfold readAttribute?
  rw [Text.name?_returned ⟨by decide, by decide⟩ ⟨by decide, by decide⟩]
  cases Text.name? startsName continuesName text with
  | none => rfl
  | some named =>
    obtain ⟨name, rest⟩ := named
    simp only [Option.map_some, skipBlanks_returned]
    cases skipBlanks rest with
    | nil => rfl
    | cons c tail =>
      by_cases feed : c = '\n'
      · subst feed
        rfl
      · rw [Text.returned_cons feed]
        by_cases equals : c = '='
        · subst equals
          simp only [skipBlanks_returned, readValue?_returned]
          cases readValue? (skipBlanks tail) with
          | none => rfl
          | some valued => simp [withReturns]
        · simp [equals]

/-- A first character keeps its being blank, and what comes after it its being what it is beyond
the blanks. -/
theorem exists_cons_returned (c : Char) (rest : List Char) :
    ∃ d tail, returned (c :: rest) = d :: tail ∧ Text.isBlank d = Text.isBlank c ∧
      (Text.isBlank c = true → skipBlanks tail = returned (skipBlanks rest)) := by
  by_cases feed : c = '\n'
  · subst feed
    refine ⟨'\r', '\n' :: returned rest, rfl, rfl, ?_⟩
    intro _
    rw [← skipBlanks_returned]
    rfl
  · exact ⟨c, returned rest, Text.returned_cons feed rest, rfl, fun _ => skipBlanks_returned rest⟩

theorem readAttributes_returned (text : List Char) :
    readAttributes (returned text) =
      ((readAttributes text).1.map (Prod.map id withReturns),
        returned (readAttributes text).2) := by
  fun_induction readAttributes text with
  | case1 =>
    unfold readAttributes
    rfl
  | case2 c rest blank read =>
    obtain ⟨d, tail, front, same, after⟩ := exists_cons_returned c rest
    have unread : readAttribute? (skipBlanks tail) = none := by
      rw [after blank, readAttribute?_returned, read]
      rfl
    rw [front, readAttributes_of_unread (same.trans blank) unread]
    rfl
  | case3 c rest blank written left read more final result ih =>
    obtain ⟨d, tail, front, same, after⟩ := exists_cons_returned c rest
    have reread : readAttribute? (skipBlanks tail) =
        some (Prod.map id withReturns written, returned left) := by
      rw [after blank, readAttribute?_returned, read]
      rfl
    rw [front, readAttributes_of_read (same.trans blank) reread, ih, result]
    rfl
  | case4 c rest blank =>
    obtain ⟨d, tail, front, same, -⟩ := exists_cons_returned c rest
    rw [front, readAttributes_of_not_isBlank (same ▸ blank)]
    rfl

theorem read?_returned (text : List Char) :
    read? (returned text) =
      (read? text).map fun (pragma, rest) => (pragma.mapValues withReturns, returned rest) := by
  by_cases opened : ∃ rest, text = '<' :: '?' :: rest
  · obtain ⟨rest, rfl⟩ := opened
    rw [Text.returned_cons (by decide), Text.returned_cons (by decide), read?, read?,
      Text.name?_returned ⟨by decide, by decide⟩ ⟨by decide, by decide⟩]
    cases Text.name? Char.isAlpha continuesTag rest with
    | none => rfl
    | some named =>
      obtain ⟨tag, rest⟩ := named
      simp only [Option.map_some, readAttributes_returned, skipBlanks_returned]
      generalize skipBlanks (readAttributes rest).2 = left
      split
      · next closing =>
        obtain ⟨more, rfl, shown⟩ := Text.returned_eq_cons (by decide) closing
        obtain ⟨rest, rfl, rfl⟩ := Text.returned_eq_cons (by decide) shown.symm
        rfl
      · next unclosed =>
        split
        · next rest => exact absurd rfl (unclosed (returned rest))
        · rfl
  · have unopened (rest : List Char) : text ≠ '<' :: '?' :: rest := by
      intro front
      exact opened ⟨rest, front⟩
    rw [read?_eq_none unopened, read?_eq_none]
    · rfl
    · intro rest front
      obtain ⟨more, rfl, shown⟩ := Text.returned_eq_cons (by decide) front
      obtain ⟨more, rfl, -⟩ := Text.returned_eq_cons (by decide) shown.symm
      exact unopened more rfl

/-! ### Segments -/

theorem segments_returned (text : List Char) :
    (segments (returned text)).filterMap Segment.kept? = returned (erase text) ∧
      (segments (returned text)).filterMap Segment.pragma? =
        ((segments text).filterMap Segment.pragma?).map (mapValues withReturns) := by
  unfold erase
  fun_induction segments text with
  | case1 text pragma rest read ih =>
    have reread := read?_returned text
    rw [read] at reread
    rw [segments_of_read reread]
    simpa [List.filterMap_cons, Segment.kept?, Segment.pragma?] using ih
  | case2 => simp [segments, read?]
  | case3 c rest read ih =>
    have reread := read?_returned (c :: rest)
    rw [read] at reread
    by_cases feed : c = '\n'
    · subst feed
      rw [Text.returned_feed, segments_cons (read?_cons (by decide) _),
        segments_cons (read?_cons (by decide) _)]
      simpa [List.filterMap_cons, Segment.kept?, Segment.pragma?] using ih
    · rw [Text.returned_cons feed] at reread ⊢
      rw [segments_cons reread]
      simpa [List.filterMap_cons, Segment.kept?, Segment.pragma?, Text.returned_cons feed] using ih

theorem erase_returned (text : List Char) : erase (returned text) = returned (erase text) :=
  (segments_returned text).1

theorem map_pragma_found_returned (source : List Char) :
    (found (returned source)).map (·.pragma) =
      ((found source).map (·.pragma)).map (mapValues withReturns) := by
  rw [map_pragma_found, map_pragma_found, (segments_returned source).2]

end Pragma

end ScriptedMarkup
