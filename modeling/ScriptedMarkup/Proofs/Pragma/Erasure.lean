import ScriptedMarkup.Proofs.Pragma.Spelling

/-!
# What is left without pragmas

Pragmas are taken out of a text in one pass. What is read as a pragma is what is spelled as one
(`read?_eq_some_iff`), so no pragma stands in characters that are left together
(`not_spelled_together`), and a pragma in what is left has come together where another was taken out
(`left_of_erasure`).
-/

namespace ScriptedMarkup.Pragma

/-! ### What is read is spelled -/

variable {text rest : List Char}

theorem exists_blanks (text : List Char) :
    ∃ blanks, text = blanks ++ skipBlanks text ∧ ∀ c ∈ blanks, Text.isBlank c = true :=
  ⟨text.takeWhile Text.isBlank, List.takeWhile_append_dropWhile.symm,
    fun c member => List.all_eq_true.1 List.all_takeWhile c member⟩

theorem exists_quote {value : List Char} (read : readValue? text = some (value, rest)) :
    ∃ quote, (quote = '"' ∨ quote = '\'') ∧ quote ∉ value ∧
      text = quote :: (value ++ quote :: rest) := by
  cases text with
  | nil => cases read
  | cons quote text =>
    rw [readValue?] at read
    split at read
    · next quoted =>
      have closing := List.head?_dropWhile_not (· != quote) text
      have split := List.takeWhile_append_dropWhile (p := (· != quote)) (l := text)
      split at read
      · cases read
      · next last after found =>
        obtain ⟨rfl, rfl⟩ := Prod.mk.inj (Option.some.inj read)
        obtain rfl : last = quote := by simpa [found] using closing
        refine ⟨last, quoted, ?_, by rw [← found, split]⟩
        intro member
        exact absurd (List.all_eq_true.1 List.all_takeWhile last member) (by simp)
    · cases read

/-- An attribute is spelled after any blanks. -/
theorem exists_attributeSpelling {gap : List Char} {written : String × String} (gap_ne_nil : gap ≠ [])
    (blank_gap : ∀ c ∈ gap, Text.isBlank c = true)
    (read : readAttribute? text = some (written, rest)) :
    ∃ spelling : AttributeSpelling, spelling.entry = written ∧ gap ++ text = spelling.text ++ rest := by
  unfold readAttribute? at read
  split at read
  · cases read
  · next name afterName named =>
    obtain ⟨beforeEquals, nameSplit, blank_beforeEquals⟩ := exists_blanks afterName
    split at read
    · next afterEquals equals =>
      obtain ⟨blanks, equalsSplit, blank_afterEquals⟩ := exists_blanks afterEquals
      split at read
      · cases read
      · next value afterValue valued =>
        obtain ⟨rfl, rfl⟩ := Prod.mk.inj (Option.some.inj read)
        obtain ⟨quote, quoted, unquoted, valueSplit⟩ := exists_quote valued
        let spelling : AttributeSpelling :=
          { gap, name, beforeEquals, quote, value, gap_ne_nil, blank_gap, blank_beforeEquals
            afterEquals := blanks
            named := Text.isName_of_name? named
            blank_afterEquals, quoted, unquoted }
        refine ⟨spelling, rfl, ?_⟩
        rw [equals, equalsSplit, valueSplit] at nameSplit
        rw [← Text.append_of_name? named, nameSplit]
        simp [spelling, AttributeSpelling.text, AttributeSpelling.body]
    · cases read

theorem exists_attributeSpellings (text : List Char) :
    ∃ spellings : List AttributeSpelling,
      (readAttributes text).1 = spellings.map AttributeSpelling.entry ∧
        text = spellings.flatMap AttributeSpelling.text ++ (readAttributes text).2 := by
  fun_induction readAttributes text with
  | case1 | case2 | case4 => exact ⟨[], rfl, rfl⟩
  | case3 c rest blank written after read more left result ih =>
    obtain ⟨spellings, entries, split⟩ := ih
    obtain ⟨blanks, skipped, all⟩ := exists_blanks rest
    have blank_gap : ∀ d ∈ c :: blanks, Text.isBlank d = true := List.forall_mem_cons.2 ⟨blank, all⟩
    obtain ⟨spelling, rfl, spelled⟩ :=
      exists_attributeSpelling (List.cons_ne_nil c blanks) blank_gap read
    rw [result] at entries split
    refine ⟨spelling :: spellings, congrArg (spelling.entry :: ·) entries, ?_⟩
    rw [List.flatMap_cons, List.append_assoc, ← split, ← spelled, List.cons_append, ← skipped]

/-- A text is read as a pragma just when it begins with a spelling of it. -/
theorem read?_eq_some_iff {pragma : Pragma} : read? text = some (pragma, rest) ↔
    ∃ spelling : Spelling, spelling.pragma = pragma ∧ text = spelling.text ++ rest := by
  constructor
  · intro read
    unfold read? at read
    split at read
    · next opened =>
      split at read
      · cases read
      · next tag afterTag named =>
        obtain ⟨spellings, entries, split⟩ := exists_attributeSpellings afterTag
        obtain ⟨gap, gapSplit, blank_gap⟩ := exists_blanks (readAttributes afterTag).2
        dsimp only at read
        split at read
        · next closing =>
          obtain ⟨rfl, rfl⟩ := Prod.mk.inj (Option.some.inj read)
          let spelling : Spelling :=
            { tag, gap, blank_gap
              attributes := spellings
              named := Text.isName_of_name? named }
          refine ⟨spelling, by rw [Spelling.pragma, entries], ?_⟩
          rw [closing] at gapSplit
          rw [← Text.append_of_name? named, split, gapSplit]
          simp [spelling, Spelling.text]
        · cases read
    · cases read
  · rintro ⟨spelling, rfl, rfl⟩
    exact read?_spelling spelling rest

theorem Spelling.text_ne_nil (spelling : Spelling) : spelling.text ≠ [] := List.cons_ne_nil _ _

/-! ### Segments of a part -/

/-- The segments from any one of them on are those of the text from there on. -/
theorem segments_of_append {before after : List Segment} (parts : segments text = before ++ after) :
    segments (after.flatMap Segment.spelling) = after := by
  induction before generalizing text with
  | nil => rw [List.nil_append] at parts; rw [← parts, spelling_segments, parts]
  | cons segment before ih =>
    cases read : read? text with
    | some found =>
      obtain ⟨pragma, rest⟩ := found
      rw [segments_of_read read] at parts
      exact ih (List.cons.inj parts).2
    | none =>
      cases text with
      | nil => rw [segments] at parts; cases parts
      | cons c rest =>
        rw [segments_cons read] at parts
        exact ih (List.cons.inj parts).2

/-- No pragma is spelled where characters are left together. -/
theorem not_spelled_together {before after : List Segment} (spelling : Spelling) :
    segments text ≠ before ++ (spelling.text.map .char ++ after) := by
  intro parts
  have here := segments_of_append parts
  rw [List.flatMap_append, Segment.spelling_chars, segments_append (read?_spelling spelling _)] at here
  exact absurd (List.cons.inj here).1 (by simp)

/-! ### What is left -/

theorem exists_of_mem_offsets {offset number : Nat} {segments : List Segment} {pragma : Pragma}
    (member : (pragma, number) ∈ offsets offset segments) :
    ∃ before spelling after, segments = before ++ .pragma pragma spelling :: after ∧
      number = offset + (Text.bytes (before.flatMap Segment.spelling)).length := by
  induction segments generalizing offset with
  | nil => cases member
  | cons segment segments ih =>
    have further (later : (pragma, number) ∈
        offsets (offset + (Text.bytes segment.spelling).length) segments) :
        ∃ before spelling after, segment :: segments = before ++ .pragma pragma spelling :: after ∧
          number = offset + (Text.bytes (before.flatMap Segment.spelling)).length := by
      obtain ⟨before, spelling, after, rfl, place⟩ := ih later
      refine ⟨segment :: before, spelling, after, rfl, ?_⟩
      rw [place, List.flatMap_cons, Text.bytes_append, List.length_append, Nat.add_assoc]
    cases segment with
    | char c => exact further member
    | pragma first spelling =>
      rcases List.mem_cons.1 member with here | later
      · obtain ⟨rfl, rfl⟩ := Prod.mk.inj here
        exact ⟨[], spelling, segments, rfl, rfl⟩
      · exact further later

/-- Every pragma that is found is spelled at its place. -/
theorem exists_of_mem_found {placed : PlacedPragma} (member : placed ∈ found text) :
    ∃ (front : List Char) (spelling : Spelling) (back : List Char),
      text = front ++ spelling.text ++ back ∧ placed.pragma = spelling.pragma ∧
        placed.place = .ofOffset text (Text.bytes front).length := by
  obtain ⟨⟨pragma, number⟩, listed, rfl⟩ := List.mem_map.1 member
  obtain ⟨before, written, after, parts, place⟩ := exists_of_mem_offsets listed
  have spelled := spelling_segments text
  have here := segments_of_append parts
  rw [parts, List.flatMap_append] at spelled
  generalize (Segment.pragma pragma written :: after).flatMap Segment.spelling = left at here spelled
  cases read : read? left with
  | none =>
    cases left with
    | nil =>
      rw [segments] at here
      cases here
    | cons c left =>
      rw [segments_cons read] at here
      exact absurd (List.cons.inj here).1 (by simp)
  | some result =>
    obtain ⟨first, rest⟩ := result
    rw [segments_of_read read] at here
    obtain ⟨rfl, -⟩ := Segment.pragma.inj (List.cons.inj here).1
    obtain ⟨spelling, rfl, rfl⟩ := read?_eq_some_iff.1 read
    refine ⟨before.flatMap Segment.spelling, spelling, rest, ?_, rfl, ?_⟩
    · rw [List.append_assoc, spelled]
    · rw [place, Nat.zero_add]

theorem length_erase_le (text : List Char) : (erase text).length ≤ text.length := by
  unfold erase
  fun_induction segments text with
  | case1 text pragma rest read ih => exact ih.trans (suffix_of_read? read).2.le
  | case2 => exact Nat.le_refl 0
  | case3 c rest read ih => exact Nat.succ_le_succ ih

/-- Nothing is taken out just when no pragma is found. -/
theorem erase_eq_self_iff (text : List Char) : erase text = text ↔ found text = [] := by
  rw [← List.map_eq_nil_iff (f := PlacedPragma.pragma), map_pragma_found, erase]
  fun_induction segments text with
  | case1 text pragma rest read ih =>
    refine iff_of_false ?_ (List.cons_ne_nil _ _)
    intro same
    have shorter : rest.length < text.length := (suffix_of_read? read).2
    have within : (erase rest).length ≤ rest.length := length_erase_le rest
    have whole : (erase rest).length = text.length := congrArg List.length same
    omega
  | case2 => exact iff_of_true rfl rfl
  | case3 c rest read ih =>
    show c :: erase rest = c :: rest ↔ (segments rest).filterMap Segment.pragma? = []
    rw [List.cons_inj_right]
    exact ih

/-- Where nothing is taken out of what is left, no pragma is left; and a pragma that is left has
come together: inside its spelling is the place where another one was taken out. -/
theorem left_of_erasure (text : List Char) :
    (erase (erase text) = erase text ↔ found (erase text) = []) ∧
      ∀ made ∈ found (erase text), ∃ (front : List Char) (spelling : Spelling) (back : List Char),
        erase text = front ++ spelling.text ++ back ∧ made.pragma = spelling.pragma ∧
          made.place = .ofOffset (erase text) (Text.bytes front).length ∧
          ∃ before removed removedText after,
            segments text = before ++ .pragma removed removedText :: after ∧
              front.length < (before.filterMap Segment.kept?).length ∧
              (before.filterMap Segment.kept?).length < front.length + spelling.text.length := by
  refine ⟨erase_eq_self_iff (erase text), ?_⟩
  intro made member
  obtain ⟨front, spelling, back, left, same, place⟩ := exists_of_mem_found member
  refine ⟨front, spelling, back, left, same, place, ?_⟩
  rcases Segment.together_or_pragma spelling.text_ne_nil left with together | around
  · obtain ⟨before, after, parts⟩ := together
    exact absurd parts (not_spelled_together spelling)
  · exact around

/-- A pragma within the spelling of another hides it until it is taken out. -/
theorem erase_leaves_pragma :
    let text := "<<?x?>?param name=\"p\"?>".toList
    (found text).filterMap (·.pragma.parameter?) = [] ∧
      (found (erase text)).filterMap (·.pragma.parameter?) = ["p"] ∧
        erase (erase text) ≠ erase text := by
  decide +kernel

theorem left_of_erasure_param :
    let text := "<<?x?>?param name=\"p\"?>".toList
    let made : PlacedPragma :=
      { pragma := { tag := "param", attributes := [("name", "p")] }, place := .ofOffset (erase text) 0 }
    made ∈ found (erase text) ∧
      ∃ (front : List Char) (spelling : Spelling) (back : List Char),
        erase text = front ++ spelling.text ++ back ∧ made.pragma = spelling.pragma ∧
          made.place = .ofOffset (erase text) (Text.bytes front).length ∧
          ∃ before removed removedText after,
            segments text = before ++ .pragma removed removedText :: after ∧
              front.length < (before.filterMap Segment.kept?).length ∧
              (before.filterMap Segment.kept?).length < front.length + spelling.text.length := by
  intro text made
  have member : made ∈ found (erase text) := by decide +kernel
  exact ⟨member, (left_of_erasure text).2 made member⟩

end ScriptedMarkup.Pragma
