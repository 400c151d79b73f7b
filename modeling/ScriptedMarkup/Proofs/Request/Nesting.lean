import Mathlib.Data.List.Basic
import ScriptedMarkup.Proofs.Pragma.Segments
import ScriptedMarkup.Proofs.Request.Basic

/-!
# Nested templates and pragmas

A text is searched for nested templates before its pragmas are taken out. Wherever one stands, more
text around it does not hide it (`TemplateError.ofText?_of_infix`). So what is left without pragmas
holds a nested template only where a pragma was taken out of the middle of it
(`Request.nested_around_pragma`).
-/

namespace ScriptedMarkup

/-! ### Templates within a text -/

namespace NestedTemplate

variable {text : List Char}

theorem isPrefixOf?_append {word rest : List Char} (read : word.isPrefixOf? text = some rest)
    (more : List Char) : word.isPrefixOf? (text ++ more) = some (rest ++ more) := by
  rw [List.isPrefixOf?_eq_some_iff_append_eq] at read ⊢
  rw [← read, List.append_assoc]

theorem closes_append (closing : closes text = true) (more : List Char) :
    closes (text ++ more) = true := by
  induction text with
  | nil => exact absurd closing (by decide)
  | cons c rest ih =>
    simp only [closes, List.cons_append, Bool.and_eq_true, Bool.or_eq_true] at closing ⊢
    obtain ⟨sameLine, ⟨bracket, after⟩ | closing⟩ := closing
    · exact ⟨sameLine, .inl ⟨bracket, by simp_all⟩⟩
    · exact ⟨sameLine, .inr (ih closing)⟩

theorem skipQuote_append (nonempty : text ≠ []) (more : List Char) :
    skipQuote (text ++ more) = skipQuote text ++ more := by
  cases text with
  | nil => exact absurd rfl nonempty
  | cons c rest =>
    rw [List.cons_append, skipQuote, skipQuote]
    split <;> rfl

theorem isType_append (typed : isType text = true) (more : List Char) :
    isType (text ++ more) = true := by
  unfold isType at typed ⊢
  split at typed
  · exact absurd typed (by decide)
  next rest named =>
    split at typed
    · exact absurd typed (by decide)
    next after valued =>
      have nonempty : rest ≠ [] := by
        rintro rfl
        cases valued
      rw [isPrefixOf?_append named more]
      simp only
      rw [skipQuote_append nonempty, isPrefixOf?_append valued more]
      exact closes_append typed more

theorem hasType_append (typed : hasType text = true) (more : List Char) :
    hasType (text ++ more) = true := by
  induction text with
  | nil => exact absurd typed (by decide)
  | cons c rest ih =>
    simp only [hasType, List.cons_append, Bool.and_eq_true, Bool.or_eq_true] at typed ⊢
    obtain here | ⟨sameLine, later⟩ := typed
    · exact .inl (isType_append here more)
    · exact .inr ⟨sameLine, ih later⟩

theorem starts_append (started : starts text = true) (more : List Char) :
    starts (text ++ more) = true := by
  unfold starts at started ⊢
  split at started
  · exact absurd started (by decide)
  · next rest read =>
    rw [isPrefixOf?_append read more]
    exact hasType_append started more

theorem isSome_find?_iff : (find? text).isSome = true ↔
    ∃ before rest, text = before ++ rest ∧ starts rest = true := by
  induction text with
  | nil =>
    refine iff_of_false (by simp [find?]) ?_
    rintro ⟨before, rest, split, started⟩
    obtain ⟨rfl, rfl⟩ := List.nil_eq_append_iff.1 split
    exact absurd started (by decide)
  | cons c text ih =>
    unfold find?
    split
    · next started => exact iff_of_true rfl ⟨[], c :: text, rfl, started⟩
    · next other =>
      rw [Option.isSome_map, ih]
      constructor
      · rintro ⟨before, rest, rfl, started⟩
        exact ⟨c :: before, rest, rfl, started⟩
      · rintro ⟨before, rest, split, started⟩
        cases before with
        | nil => exact absurd (split ▸ started) other
        | cons d before => exact ⟨before, rest, (List.cons.inj split).2, started⟩

theorem isSome_find?_of_infix {nested : List Char} (within : nested <:+: text)
    (found : (find? nested).isSome = true) : (find? text).isSome = true := by
  obtain ⟨front, back, rfl⟩ := within
  obtain ⟨before, rest, rfl, started⟩ := isSome_find?_iff.1 found
  refine isSome_find?_iff.2 ⟨front ++ before, rest ++ back, by simp, ?_⟩
  exact starts_append started back

end NestedTemplate

namespace TemplateError

theorem ofText?_eq_none_iff {text : List Char} :
    ofText? text = none ↔ NestedTemplate.find? text = none := Option.map_eq_none_iff

/-- A text without nested templates has none in any part of it. -/
theorem ofText?_of_infix {nested text : List Char} (within : nested <:+: text)
    (plain : ofText? text = none) : ofText? nested = none := by
  rw [ofText?_eq_none_iff] at plain ⊢
  by_contra found
  have inside := NestedTemplate.isSome_find?_of_infix within (Option.isSome_iff_ne_none.2 found)
  simp [plain] at inside

end TemplateError

/-! ### Characters between pragmas -/

namespace Segment

theorem infix_or_pragma {segments : List Segment} {front text back : List Char}
    (nonempty : text ≠ []) (kept : segments.filterMap kept? = front ++ text ++ back) :
    text <:+: segments.flatMap spelling ∨
      ∃ before pragma spelling after, segments = before ++ .pragma pragma spelling :: after ∧
        front.length < (before.filterMap kept?).length ∧
        (before.filterMap kept?).length < front.length + text.length := by
  refine (together_or_pragma nonempty kept).imp_left ?_
  rintro ⟨before, after, rfl⟩
  refine ⟨before.flatMap spelling, after.flatMap spelling, ?_⟩
  rw [List.flatMap_append, List.flatMap_append, spelling_chars, List.append_assoc]

end Segment

namespace Request

variable {request : Request}

theorem plain_of_compiled {names : NameSupply} {compiled : CompiledFunction}
    (compiles : (request.compile names).1 = .ok compiled) : request.error? = none := by
  cases outcome : request.error? with
  | none => rfl
  | some error =>
    rw [compile_of_nested outcome] at compiles
    cases compiles

theorem body_of_unhooked {names : NameSupply} {compiled : CompiledFunction}
    (unhooked : request.hook? = none) (compiles : (request.compile names).1 = .ok compiled) :
    compiled.body =
      (Body.compile names (({} : Header).render compiled.parameters ++ request.plain)).1 := by
  rw [compile_of_plain (plain_of_compiled compiles), script_of_unhooked unhooked] at compiles
  obtain rfl := Except.ok.inj compiles
  dsimp only

/-- What is compiled of a template without a hook, after its header, is the text without pragmas.
That text may hold a nested template which the source does not, but only around the place where a
pragma was. -/
theorem nested_around_pragma {names : NameSupply} {compiled : CompiledFunction}
    (unhooked : request.hook? = none) (compiles : (request.compile names).1 = .ok compiled) :
    let body := Pragma.erase request.uncommented
    let header := ({} : Header).render compiled.parameters
    compiled.body = (Body.compile names (header ++ String.ofList body)).1 ∧
      ∀ front nested back, body = front ++ nested ++ back → TemplateError.ofText? nested ≠ none →
        ∃ before pragma spelling after,
          Pragma.segments request.uncommented = before ++ .pragma pragma spelling :: after ∧
            front.length < (before.filterMap Segment.kept?).length ∧
            (before.filterMap Segment.kept?).length < front.length + nested.length := by
  intro body header
  have plain : TemplateError.ofText? request.uncommented = none := plain_of_compiled compiles
  refine ⟨body_of_unhooked unhooked compiles, ?_⟩
  · intro front nested back kept found
    have nonempty : nested ≠ [] := by
      rintro rfl
      exact found rfl
    refine (Segment.infix_or_pragma nonempty kept).resolve_left ?_
    intro within
    rw [Pragma.spelling_segments] at within
    exact found (TemplateError.ofText?_of_infix within plain)

/-- A pragma in the middle of a tag hides it from the search for nested templates. -/
theorem nested_after_erasure :
    let request : Request := { source := "<scr<?x?>ipt type=text/edbml>x" }
    request.hook? = none ∧ (request.compile {}).1.isOk = true ∧
      TemplateError.ofText? (Pragma.erase request.uncommented) ≠ none := by
  decide +kernel

theorem nested_around_pragma_in_tag :
    let request : Request := { source := "<scr<?x?>ipt type=text/edbml>x" }
    ∃ compiled : CompiledFunction, request.hook? = none ∧ (request.compile {}).1 = .ok compiled ∧
      TemplateError.ofText? (Pragma.erase request.uncommented) ≠ none ∧
      ∃ before pragma spelling after,
        Pragma.segments request.uncommented = before ++ .pragma pragma spelling :: after ∧
          0 < (before.filterMap Segment.kept?).length ∧
          (before.filterMap Segment.kept?).length < (Pragma.erase request.uncommented).length := by
  intro request
  have plain : request.error? = none := by decide +kernel
  have compiles := congrArg Prod.fst (compile_of_plain plain {})
  have found : TemplateError.ofText? (Pragma.erase request.uncommented) ≠ none := by decide +kernel
  obtain ⟨-, around⟩ := nested_around_pragma rfl compiles
  have inside := around [] (Pragma.erase request.uncommented) [] (by simp) found
  simp only [List.length_nil, Nat.zero_add] at inside
  exact ⟨_, rfl, compiles, found, inside⟩

end Request

end ScriptedMarkup
