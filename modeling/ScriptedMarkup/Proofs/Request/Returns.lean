import ScriptedMarkup.Proofs.Pragma.Returns
import ScriptedMarkup.Proofs.Request.Basic
import ScriptedMarkup.Proofs.Request.Header

/-!
# Carriage returns in a source

A source compiles the same whether its lines end in line feeds or in carriage returns and line feeds
(`Request.compile_returned`). Each of the passes before the scan keeps the carriage returns of what
it leaves, and the scan reads lines without them.
-/

namespace ScriptedMarkup

open Text (returned unreturned withReturns withoutReturns Unended)

/-! ### Comments -/

namespace Comment

/-- A kind of comment whose delimiters stay within a line. -/
structure Inline (comment : Comment) : Prop where
  opening_ne_nil : comment.opening ≠ []
  closing_ne_nil : comment.closing ≠ []
  opening_unended : Unended comment.opening
  closing_unended : Unended comment.closing

theorem inline_markup : markup.Inline where
  opening_ne_nil := by decide
  closing_ne_nil := by decide
  opening_unended := ⟨by decide, by decide⟩
  closing_unended := ⟨by decide, by decide⟩

theorem inline_block : block.Inline where
  opening_ne_nil := by decide
  closing_ne_nil := by decide
  opening_unended := ⟨by decide, by decide⟩
  closing_unended := ⟨by decide, by decide⟩

variable {comment : Comment}

theorem Inline.strip (inlined : comment.Inline) (text : List Char) :
    comment.strip text = comment.outside [] text := by
  rw [Comment.strip, List.isEmpty_eq_false_iff.2 inlined.opening_ne_nil,
    List.isEmpty_eq_false_iff.2 inlined.closing_ne_nil]
  rfl

/-- No delimiter starts at a line end. -/
theorem Inline.opens_apart (inlined : comment.Inline) {c : Char} (ends : c = '\r' ∨ c = '\n')
    (rest : List Char) : comment.opening.isPrefixOf (c :: rest) = false :=
  inlined.opening_unended.not_isPrefixOf inlined.opening_ne_nil ends rest

theorem Inline.closes_apart (inlined : comment.Inline) {c : Char} (ends : c = '\r' ∨ c = '\n')
    (before : List Char) : comment.closing.reverse.isPrefixOf (c :: before) = false :=
  inlined.closing_unended.reverse.not_isPrefixOf (by simpa using inlined.closing_ne_nil) ends before

/-- The reverse of a text with carriage returns, from the reverse of the text. -/
def returnedBefore (before : List Char) : List Char :=
  before.flatMap fun c => if c = '\n' then ['\n', '\r'] else [c]

theorem returnedBefore_cons {c : Char} (other : c ≠ '\n') (before : List Char) :
    returnedBefore (c :: before) = c :: returnedBefore before := by
  simp [returnedBefore, other]

theorem Inline.closes_returned (inlined : comment.Inline) (before : List Char) :
    comment.closing.reverse.isPrefixOf (returnedBefore before) =
      comment.closing.reverse.isPrefixOf before := by
  have notFeed : '\n' ∉ comment.closing.reverse := by
    simpa using inlined.closing_unended.2
  exact Text.isPrefixOf_flatMap rfl (fun _ other => if_neg other) notFeed notFeed before

/-- Comments are found at the same places in both texts. Whether one opens depends on what follows,
and whether it closes on what was read, so both texts are followed from any place on. -/
theorem Inline.kept_returned (inlined : comment.Inline) (text before : List Char) :
    (comment.outside (returnedBefore before) (returned text)).kept =
        returned (comment.outside before text).kept ∧
      (comment.inside (returnedBefore before) (returned text)).map Uncommented.kept =
        (comment.inside before text).map (returned ·.kept) := by
  induction text generalizing before with
  | nil => exact ⟨rfl, rfl⟩
  | cons c rest ih =>
    obtain ⟨outside, inside⟩ := ih (c :: before)
    by_cases feed : c = '\n'
    · subst feed
      have front : returnedBefore ('\n' :: before) = '\n' :: '\r' :: returnedBefore before := rfl
      rw [front] at outside inside
      have opened := inlined.opens_apart (.inl rfl) ('\n' :: returned rest)
      simp only [Text.returned_feed, Comment.outside, Comment.inside, opened,
        inlined.opens_apart (.inr rfl), inlined.closes_apart (.inl rfl),
        inlined.closes_apart (.inr rfl)]
      exact ⟨by simp [outside], inside⟩
    · rw [returnedBefore_cons feed] at outside inside
      have opens := Text.isPrefixOf_returned inlined.opening_unended (c :: rest)
      have closes := inlined.closes_returned (c :: before)
      rw [returnedBefore_cons feed] at closes
      rw [Text.returned_cons feed] at opens ⊢
      simp only [Comment.outside, Comment.inside, opens, closes]
      constructor
      · split
        · have filled : returned (c :: rest) = c :: returned rest := Text.returned_cons feed rest
          cases found : comment.inside (c :: before) rest with
          | none =>
            rw [found, Option.map_none, Option.map_eq_none_iff] at inside
            rw [inside]
            exact filled.symm
          | some left =>
            rw [found, Option.map_some, Option.map_eq_some_iff] at inside
            obtain ⟨reread, read, kept⟩ := inside
            rw [read]
            exact kept
        · simp [outside, Text.returned_cons feed]
      · split
        · simp [outside]
        · exact inside

theorem kept_strip_returned (inlined : comment.Inline) (text : List Char) :
    (comment.strip (returned text)).kept = returned (comment.strip text).kept := by
  rw [inlined.strip, inlined.strip]
  exact (inlined.kept_returned text []).1

theorem stripAll_returned (text : List Char) : stripAll (returned text) = returned (stripAll text) := by
  rw [stripAll, kept_strip_returned inline_markup, kept_strip_returned inline_block]
  rfl

theorem kept_subset (text before : List Char) :
    (comment.outside before text).kept ⊆ text ∧
      ∀ left, comment.inside before text = some left → left.kept ⊆ text := by
  induction text generalizing before with
  | nil => simp [Comment.outside, Comment.inside]
  | cons c rest ih =>
    obtain ⟨outside, inside⟩ := ih (c :: before)
    constructor
    · unfold Comment.outside
      split
      · cases found : comment.inside (c :: before) rest with
        | none => exact List.Subset.refl _
        | some left => exact List.subset_cons_of_subset c (inside left found)
      · exact List.cons_subset_cons c outside
    · intro left found
      unfold Comment.inside at found
      split at found
      · obtain rfl := Option.some.inj found
        exact List.subset_cons_of_subset c outside
      · exact List.subset_cons_of_subset c (inside left found)

theorem stripAll_subset (text : List Char) : stripAll text ⊆ text := by
  have strip (comment : Comment) (text : List Char) : (comment.strip text).kept ⊆ text := by
    unfold Comment.strip
    split
    · exact List.Subset.refl _
    · exact (kept_subset text []).1
  exact List.Subset.trans (strip block _) (strip markup text)

end Comment

/-! ### Nested templates -/

namespace NestedTemplate

theorem closes_returned (text : List Char) : closes (returned text) = closes text := by
  induction text with
  | nil => rfl
  | cons c rest ih =>
    by_cases feed : c = '\n'
    · subst feed
      rfl
    · rw [Text.returned_cons feed, closes, closes, Text.isEmpty_returned, ih]

theorem skipQuote_returned (text : List Char) :
    skipQuote (returned text) = returned (skipQuote text) := by
  cases text with
  | nil => rfl
  | cons c rest =>
    by_cases feed : c = '\n'
    · subst feed
      rfl
    · rw [Text.returned_cons feed, skipQuote, skipQuote]
      split
      · rfl
      · exact (Text.returned_cons feed rest).symm

theorem isType_returned (text : List Char) : isType (returned text) = isType text := by
  unfold isType
  rw [Text.isPrefixOf?_returned ⟨by decide, by decide⟩]
  cases typeAttribute.isPrefixOf? text with
  | none => rfl
  | some rest =>
    simp only [Option.map_some]
    rw [skipQuote_returned, Text.isPrefixOf?_returned ⟨by decide, by decide⟩]
    cases templateType.isPrefixOf? (skipQuote rest) with
    | none => rfl
    | some rest => exact closes_returned rest

theorem hasType_returned (text : List Char) : hasType (returned text) = hasType text := by
  induction text with
  | nil => rfl
  | cons c rest ih =>
    by_cases feed : c = '\n'
    · subst feed
      rfl
    · have same := isType_returned (c :: rest)
      rw [Text.returned_cons feed] at same ⊢
      rw [hasType, hasType, same, ih]

theorem starts_returned (text : List Char) : starts (returned text) = starts text := by
  unfold starts
  rw [Text.isPrefixOf?_returned ⟨by decide, by decide⟩]
  cases scriptTag.isPrefixOf? text with
  | none => rfl
  | some rest => exact hasType_returned rest

theorem find?_returned (text : List Char) :
    find? (returned text) = (find? text).map returned := by
  induction text with
  | nil => rfl
  | cons c rest ih =>
    by_cases feed : c = '\n'
    · subst feed
      show ((find? (returned rest)).map ('\n' :: ·)).map ('\r' :: ·) =
        ((find? rest).map ('\n' :: ·)).map returned
      rw [ih, Option.map_map, Option.map_map, Option.map_map]
      rfl
    · have same := starts_returned (c :: rest)
      rw [Text.returned_cons feed] at same ⊢
      rw [find?, find?, same]
      split
      · rfl
      · rw [ih, Option.map_map, Option.map_map]
        exact congrArg (Option.map · _) (funext fun before => (Text.returned_cons feed before).symm)

end NestedTemplate

/-- What an error says but for the offset of its place. -/
def TemplateError.report (error : TemplateError) : String × Nat × Nat :=
  (error.reason, error.place.line, error.place.column)

theorem TemplateError.ofText?_returned (text : List Char) :
    (ofText? (returned text)).map report = (ofText? text).map report := by
  unfold ofText?
  rw [NestedTemplate.find?_returned, Option.map_map, Option.map_map, Option.map_map]
  congr 1
  funext before
  obtain ⟨line, column⟩ := Text.after_returned before
  exact congrArg _ (Prod.ext line column)

/-! ### Scripts -/

theorem Body.compile_congr {first second : String}
    (same : Text.lines first.toList = Text.lines second.toList) (names : NameSupply) :
    compile names first = compile names second := by
  unfold compile scan Signal.ofSource
  rw [same]

/-- Results that differ in carriage returns alone, and in the offsets of places. -/
inductive SameButReturns :
    Except TemplateError CompiledFunction → Except TemplateError CompiledFunction → Prop
  | error {first second : TemplateError} (report : first.report = second.report) :
      SameButReturns (.error first) (.error second)
  | ok {first second : CompiledFunction} (body : first.body = second.body)
      (parameters : first.parameters.map withoutReturns = second.parameters.map withoutReturns)
      (pragmas : first.pragmas.map (·.pragma.mapValues withoutReturns) =
        second.pragmas.map (·.pragma.mapValues withoutReturns)) :
      SameButReturns (.ok first) (.ok second)

namespace Request

section Returned

variable {feeds returns : Request} (stripped : returns.uncommented = returned feeds.uncommented)

include stripped

theorem pragmas_returned :
    returns.preparation.pragmas.map (·.pragma) =
      (feeds.preparation.pragmas.map (·.pragma)).map (Pragma.mapValues withReturns) := by
  show (Pragma.found returns.uncommented).map (·.pragma) = _
  rw [stripped]
  exact Pragma.map_pragma_found_returned feeds.uncommented

theorem values_returned :
    returns.preparation.pragmas.map (·.pragma.mapValues withoutReturns) =
      feeds.preparation.pragmas.map (·.pragma.mapValues withoutReturns) := by
  have split (request : Request) :
      request.preparation.pragmas.map (·.pragma.mapValues withoutReturns) =
        (request.preparation.pragmas.map (·.pragma)).map (Pragma.mapValues withoutReturns) := by
    rw [List.map_map]
    rfl
  rw [split, split, pragmas_returned stripped, List.map_map]
  apply List.map_congr_left
  intro pragma _
  rw [Function.comp_apply, Pragma.mapValues_mapValues]
  exact congrArg (pragma.mapValues ·) (funext Text.withoutReturns_withReturns)

theorem parameters_returned :
    returns.preparation.parameters = feeds.preparation.parameters.map withReturns := by
  rw [Preparation.parameters_eq, Preparation.parameters_eq, pragmas_returned stripped,
    Pragma.filterMap_parameter?_mapValues]

theorem lines_script_returned (plain : '\r' ∉ feeds.uncommented) (unhooked : feeds.hook? = none)
    (reunhooked : returns.hook? = none) :
    Text.lines returns.preparation.script.toList =
      Text.lines feeds.preparation.script.toList := by
  have header : ({} : Header).render returns.preparation.parameters =
      ({} : Header).render feeds.preparation.parameters := by
    rw [parameters_returned stripped]
    exact Header.render_congr (Text.mem_map_withReturns (by decide) _) {}
  have erased : returns.plain.toList = returned (Pragma.erase feeds.uncommented) := by
    rw [Request.plain, String.toList_ofList, stripped, Pragma.erase_returned]
  have kept : '\r' ∉ Pragma.erase feeds.uncommented := by
    intro member
    exact plain (Pragma.erase_subset _ member)
  obtain ⟨front, ended⟩ := Header.exists_toList_render {} feeds.preparation.parameters
  have lines (text : List Char) : Text.lines ((front ++ ['\n']) ++ text) =
      Text.lines front ++ Text.lines text := by
    rw [List.append_assoc]
    exact Text.lines_append_feed front text
  rw [script_of_unhooked unhooked, script_of_unhooked reunhooked, header, String.toList_append,
    String.toList_append, ended, lines, lines, erased, Text.lines_returned kept, Request.plain,
    String.toList_ofList]

end Returned

/-- A source without carriage returns compiles the same when each line feed gets one in front of it.
It fails with the same error at the same line and column, or gives the same text and takes the same
names. Its pragmas and parameters differ in carriage returns alone. -/
theorem compile_returned {source : String} (plain : '\r' ∉ source.toList)
    (directives : Directives) (names : NameSupply) :
    let feeds : Request := { source, directives }
    let returns : Request := { source := withReturns source, directives }
    SameButReturns (returns.compile names).1 (feeds.compile names).1 ∧
      (returns.compile names).2 = (feeds.compile names).2 := by
  intro feeds returns
  have stripped : returns.uncommented = returned feeds.uncommented := by
    show Comment.stripAll (withReturns source).toList = _
    rw [withReturns, String.toList_ofList, Comment.stripAll_returned]
    rfl
  have failure : returns.error?.map TemplateError.report = feeds.error?.map TemplateError.report := by
    rw [error?, stripped]
    exact TemplateError.ofText?_returned feeds.uncommented
  cases failed : feeds.error? with
  | some error =>
    rw [failed, Option.map_some, Option.map_eq_some_iff] at failure
    obtain ⟨other, refailed, report⟩ := failure
    rw [compile_of_nested failed, compile_of_nested refailed]
    exact ⟨.error report, rfl⟩
  | none =>
    rw [failed, Option.map_none, Option.map_eq_none_iff] at failure
    have kept : '\r' ∉ feeds.uncommented := by
      intro member
      exact plain (Comment.stripAll_subset _ member)
    have same := lines_script_returned stripped kept rfl rfl
    rw [compile_of_plain failed, compile_of_plain failure, Body.compile_congr same]
    refine ⟨.ok rfl ?_ (values_returned stripped), rfl⟩
    simp [parameters_returned stripped, Text.withoutReturns_withReturns]

theorem compile_returned_broken_value :
    let source := "<?param name='a\nb'?>\n<p>x</p>"
    '\r' ∉ source.toList ∧ withReturns source = "<?param name='a\r\nb'?>\r\n<p>x</p>" ∧
      SameButReturns (({ source := withReturns source } : Request).compile {}).1
        (({ source } : Request).compile {}).1 ∧
      (({ source := withReturns source } : Request).compile {}).2 =
        (({ source } : Request).compile {}).2 :=
  ⟨by decide, by decide, compile_returned (by decide) ∅ {}⟩

end Request

end ScriptedMarkup
