import ScriptedMarkup.Proofs.Pragma.Spelling

/-!
# Pragmas between pieces of text

Pragmas that are put between pieces of text without `<?` are all found, each at its place, and the
pieces are what is left without them (`found_interleaved`).
-/

namespace ScriptedMarkup.Pragma

variable {text rest : List Char}

/-- A text that begins with `first`, and then has pragmas with texts after them. -/
def interleaved (first : List Char) (parts : List (Spelling × List Char)) : List Char :=
  first ++ parts.flatMap fun (spelling, text) => spelling.text ++ text

/-- What each pragma with the text after it is read as. -/
def partSegments (part : Spelling × List Char) : List Segment :=
  .pragma part.1.pragma part.1.text :: part.2.map .char

theorem pragma?_partSegments (part : Spelling × List Char) :
    (partSegments part).filterMap Segment.pragma? = [part.1.pragma] := by
  rw [partSegments, List.filterMap_cons, Segment.pragma?_chars]
  rfl

theorem kept_partSegments (part : Spelling × List Char) :
    (partSegments part).filterMap Segment.kept? = part.2 := by
  rw [partSegments, List.filterMap_cons, Segment.kept_chars]
  rfl

theorem interleaved_cons (first : List Char) (spelling : Spelling) (text : List Char)
    (parts : List (Spelling × List Char)) :
    interleaved first ((spelling, text) :: parts) =
      first ++ (spelling.text ++ interleaved text parts) := by
  simp only [interleaved, List.flatMap_cons, List.append_assoc]

/-- No pragma starts in a text without `<?`, unless the text is cut in the middle of it. -/
theorem segments_plain (plain : ¬['<', '?'] <:+: text) (uncut : rest.head? ≠ some '?') :
    segments (text ++ rest) = text.map .char ++ segments rest := by
  induction text with
  | nil => rfl
  | cons c text ih =>
    have unread : read? (c :: (text ++ rest)) = none := by
      refine read?_eq_none fun tail front => ?_
      obtain ⟨rfl, opened⟩ := List.cons.inj front
      cases text with
      | nil =>
        rw [List.nil_append] at opened
        exact uncut (by rw [opened, List.head?_cons])
      | cons d text =>
        obtain ⟨rfl, -⟩ := List.cons.inj opened
        exact plain ⟨[], text, rfl⟩
    have later : ¬['<', '?'] <:+: text := by
      intro within
      exact plain (within.trans (List.suffix_cons c text).isInfix)
    rw [List.cons_append, segments_cons unread, ih later]
    rfl

theorem segments_interleaved {first : List Char} {parts : List (Spelling × List Char)}
    (plain : ¬['<', '?'] <:+: first) (apart : ∀ part ∈ parts, ¬['<', '?'] <:+: part.2) :
    segments (interleaved first parts) = first.map .char ++ parts.flatMap partSegments := by
  induction parts generalizing first with
  | nil =>
    rw [interleaved, List.flatMap_nil, segments_plain plain (by simp), segments]
    rfl
  | cons part parts ih =>
    obtain ⟨spelling, text⟩ := part
    obtain ⟨here, later⟩ := List.forall_mem_cons.1 apart
    have uncut : (spelling.text ++ interleaved text parts).head? ≠ some '?' := by
      simp [Spelling.text]
    rw [interleaved_cons, segments_plain plain uncut, segments_append (read?_spelling spelling _),
      ih here later]
    rfl

theorem pragmas_parts (first : List Char) (parts : List (Spelling × List Char)) :
    (first.map Segment.char ++ parts.flatMap partSegments).filterMap Segment.pragma? =
      parts.map (·.1.pragma) := by
  rw [List.filterMap_append, Segment.pragma?_chars, List.nil_append, List.filterMap_flatMap,
    funext pragma?_partSegments, ← List.map_eq_flatMap]

theorem kept_parts (first : List Char) (parts : List (Spelling × List Char)) :
    (first.map Segment.char ++ parts.flatMap partSegments).filterMap Segment.kept? =
      first ++ parts.flatMap (·.2) := by
  rw [List.filterMap_append, Segment.kept_chars, List.filterMap_flatMap, funext kept_partSegments]

/-- Pragmas that are written between pieces of text are read as they are written, in their order, each
at its place: a name has the value that is written last for it. The pieces of text are what is left. -/
theorem found_interleaved {first : List Char} {parts : List (Spelling × List Char)}
    (plain : ¬['<', '?'] <:+: first) (apart : ∀ part ∈ parts, ¬['<', '?'] <:+: part.2) :
    (found (interleaved first parts)).length = parts.length ∧
      (∀ before spelling text after, parts = before ++ (spelling, text) :: after →
        ∃ placed, (found (interleaved first parts))[before.length]? = some placed ∧
          placed.place =
            .ofOffset (interleaved first parts) (Text.bytes (interleaved first before)).length ∧
          placed.pragma.tag = String.ofList spelling.tag ∧
          placed.pragma.attributes =
            attributesWithin (spelling.attributes.flatMap AttributeSpelling.text) ∧
          ∀ name, placed.pragma.value? name = spelling.lastValue? name) ∧
      erase (interleaved first parts) = first ++ parts.flatMap (·.2) := by
  have read := segments_interleaved plain apart
  refine ⟨?_, ?_, ?_⟩
  · rw [← List.length_map (·.pragma), map_pragma_found, read, pragmas_parts, List.length_map]
  · rintro before spelling text after rfl
    have spelled : (first.map Segment.char ++ before.flatMap partSegments).flatMap Segment.spelling =
        interleaved first before := by
      rw [← segments_interleaved plain fun part member => apart part (List.mem_append_left _ member),
        spelling_segments]
    have split : segments (interleaved first (before ++ (spelling, text) :: after)) =
        (first.map Segment.char ++ before.flatMap partSegments) ++
          .pragma spelling.pragma spelling.text :: (text.map .char ++ after.flatMap partSegments) := by
      rw [read, List.flatMap_append, List.flatMap_cons, partSegments, List.append_assoc]
      rfl
    have placed := getElem?_found split
    rw [pragmas_parts, List.length_map, spelled] at placed
    exact ⟨_, placed, rfl, rfl, (attributesWithin_spellings _).symm, value?_spelling spelling⟩
  · rw [erase, read, kept_parts]

/-- A pragma with two values for one name. The first looks like the end of the pragma, with another
pragma on the next line. -/
def imitation : Spelling where
  tag := ['p', '-']
  attributes := [
    { gap := [' ']
      name := ['x']
      quote := '"'
      value := ['?', '>', '\n', '<', '?', 'q', ' ', 'x', '=', '\'', '2', '\'', '?', '>']
      gap_ne_nil := by decide
      blank_gap := List.all_eq_true.1 rfl
      named := ⟨'x', [], rfl, rfl, List.all_eq_true.1 rfl⟩
      blank_beforeEquals := List.all_eq_true.1 rfl
      blank_afterEquals := List.all_eq_true.1 rfl
      quoted := by decide
      unquoted := by decide },
    { gap := ['\t', ' ']
      name := ['x']
      beforeEquals := [' ']
      afterEquals := [' ']
      quote := '\''
      value := ['=']
      gap_ne_nil := by decide
      blank_gap := List.all_eq_true.1 rfl
      named := ⟨'x', [], rfl, rfl, List.all_eq_true.1 rfl⟩
      blank_beforeEquals := List.all_eq_true.1 rfl
      blank_afterEquals := List.all_eq_true.1 rfl
      quoted := by decide
      unquoted := by decide }]
  gap := ['\n']
  named := ⟨'p', ['-'], rfl, rfl, List.all_eq_true.1 rfl⟩
  blank_gap := List.all_eq_true.1 rfl

theorem found_interleaved_imitation :
    let parts := [(imitation, ['<']), (imitation, ['?', '>'])]
    ¬['<', '?'] <:+: ['é', '<'] ∧ (∀ part ∈ parts, ¬['<', '?'] <:+: part.2) ∧
      (found (interleaved ['é', '<'] parts)).length = 2 ∧
      (∃ placed, (found (interleaved ['é', '<'] parts))[1]? = some placed ∧
        placed.place = ⟨39, 3, 4⟩ ∧ placed.pragma.tag = "p-" ∧
        placed.pragma.value? "x" = some "=") ∧
      erase (interleaved ['é', '<'] parts) = ['é', '<', '<', '?', '>'] := by
  intro parts
  have plain : ¬['<', '?'] <:+: ['é', '<'] := by decide
  have apart : ∀ part ∈ parts, ¬['<', '?'] <:+: part.2 := by decide
  obtain ⟨length, placed, erased⟩ := found_interleaved plain apart
  obtain ⟨second, found, place, tag, -, value⟩ := placed [(imitation, ['<'])] imitation ['?', '>'] [] rfl
  refine ⟨plain, apart, length, ⟨second, found, place.trans ?_, tag, (value "x").trans ?_⟩, erased⟩
  · decide
  · decide

end ScriptedMarkup.Pragma
