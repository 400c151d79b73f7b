import Mathlib.Order.Bounds.Basic
import ScriptedMarkup.Proofs.Request.Nesting
import ScriptedMarkup.Proofs.Session.Stages
import ScriptedMarkup.Proofs.Text.Slices

/-!
# Which texts are refused

`NestedTemplate.TagAt` says where a nested template stands in a text, by the numbers of characters
alone. A text is refused just when it has one, at the first of them, and passed on as it is otherwise
(`TemplateError.validated`). The search tries one reading at each place; `starts_iff` shows that it
misses none.
-/

namespace ScriptedMarkup

namespace NestedTemplate

variable {text : List Char}

/-- What may stand before the template type. -/
def quotes : List (List Char) := [[], ['"'], ['\'']]

theorem exists_quote (text : List Char) : ∃ quote ∈ quotes, text = quote ++ skipQuote text := by
  cases text with
  | nil => exact ⟨[], by decide, rfl⟩
  | cons c rest =>
    by_cases quoted : c = '"' ∨ c = '\''
    · refine ⟨[c], ?_, ?_⟩
      · rcases quoted with rfl | rfl <;> decide
      · rw [skipQuote, if_pos quoted]
        rfl
    · refine ⟨[], by decide, ?_⟩
      rw [skipQuote, if_neg quoted]
      rfl

theorem skipQuote_of_quote {quote : List Char} (member : quote ∈ quotes) (rest : List Char) :
    skipQuote (quote ++ templateType ++ rest) = templateType ++ rest := by
  simp only [quotes, List.mem_cons, List.not_mem_nil, or_false] at member
  rcases member with rfl | rfl | rfl <;> rfl

theorem closes_iff :
    closes text = true ↔ ∃ inner rest, text = inner ++ '>' :: rest ∧ '\n' ∉ inner ∧ rest ≠ [] := by
  induction text with
  | nil => simp [closes]
  | cons c text ih =>
    simp only [closes, Bool.and_eq_true, Bool.or_eq_true, bne_iff_ne, beq_iff_eq, ih,
      Bool.not_eq_true', List.isEmpty_eq_false_iff]
    constructor
    · rintro ⟨notFeed, ⟨rfl, more⟩ | ⟨inner, rest, rfl, lined, more⟩⟩
      · exact ⟨[], text, rfl, List.not_mem_nil, more⟩
      · exact ⟨c :: inner, rest, rfl, List.not_mem_cons_of_ne_of_not_mem notFeed.symm lined, more⟩
    · rintro ⟨inner, rest, split, lined, more⟩
      cases inner with
      | nil =>
        obtain ⟨rfl, rfl⟩ := List.cons.inj split
        exact ⟨by decide, .inl ⟨rfl, more⟩⟩
      | cons d inner =>
        obtain ⟨rfl, rfl⟩ := List.cons.inj split
        exact ⟨(List.ne_of_not_mem_cons lined).symm,
          .inr ⟨inner, rest, rfl, List.not_mem_of_not_mem_cons lined, more⟩⟩

theorem isType_iff :
    isType text = true ↔
      ∃ quote ∈ quotes, ∃ rest, text = typeAttribute ++ quote ++ templateType ++ rest ∧
        closes rest = true := by
  constructor
  · intro typed
    unfold isType at typed
    split at typed
    · exact absurd typed (by decide)
    next afterName named =>
      split at typed
      · exact absurd typed (by decide)
      next rest valued =>
        rw [List.isPrefixOf?_eq_some_iff_append_eq] at named valued
        obtain ⟨quote, member, unquoted⟩ := exists_quote afterName
        refine ⟨quote, member, rest, ?_, typed⟩
        rw [← named, unquoted, ← valued]
        simp only [List.append_assoc]
  · rintro ⟨quote, member, rest, rfl, closing⟩
    have named : typeAttribute.isPrefixOf? (typeAttribute ++ quote ++ templateType ++ rest) =
        some (quote ++ templateType ++ rest) := by
      rw [List.isPrefixOf?_eq_some_iff_append_eq]
      simp only [List.append_assoc]
    have valued : templateType.isPrefixOf? (skipQuote (quote ++ templateType ++ rest)) =
        some rest := by
      rw [skipQuote_of_quote member, List.isPrefixOf?_eq_some_iff_append_eq]
    unfold isType
    rw [named]
    simp only [valued, closing]

theorem hasType_iff :
    hasType text = true ↔
      ∃ gap rest, text = gap ++ rest ∧ '\n' ∉ gap ∧ isType rest = true := by
  induction text with
  | nil =>
    have untyped : isType [] = false := by decide
    simp [hasType, untyped]
  | cons c text ih =>
    simp only [hasType, Bool.and_eq_true, Bool.or_eq_true, bne_iff_ne, ih]
    constructor
    · rintro (here | ⟨notFeed, gap, rest, rfl, lined, typed⟩)
      · exact ⟨[], c :: text, rfl, List.not_mem_nil, here⟩
      · exact ⟨c :: gap, rest, rfl, List.not_mem_cons_of_ne_of_not_mem notFeed.symm lined, typed⟩
    · rintro ⟨gap, rest, split, lined, typed⟩
      cases gap with
      | nil => exact .inl (split ▸ typed)
      | cons d gap =>
        obtain ⟨rfl, rfl⟩ := List.cons.inj split
        exact .inr ⟨(List.ne_of_not_mem_cons lined).symm, gap, rest, rfl,
          List.not_mem_of_not_mem_cons lined, typed⟩

theorem starts_iff :
    starts text = true ↔
      ∃ gap, ∃ quote ∈ quotes, ∃ inner rest, '\n' ∉ gap ∧ '\n' ∉ inner ∧ rest ≠ [] ∧
        text = scriptTag ++ gap ++ (typeAttribute ++ quote ++ templateType) ++ inner ++ '>' :: rest := by
  constructor
  · intro started
    unfold starts at started
    split at started
    · exact absurd started (by decide)
    next rest named =>
      rw [List.isPrefixOf?_eq_some_iff_append_eq] at named
      obtain ⟨gap, rest, rfl, lined, typed⟩ := hasType_iff.1 started
      obtain ⟨quote, member, rest, rfl, closing⟩ := isType_iff.1 typed
      obtain ⟨inner, rest, rfl, inLine, more⟩ := closes_iff.1 closing
      refine ⟨gap, quote, member, inner, rest, lined, inLine, more, ?_⟩
      rw [← named]
      simp only [List.append_assoc]
  · rintro ⟨gap, quote, member, inner, rest, lined, inLine, more, rfl⟩
    have closing : closes (inner ++ '>' :: rest) = true := closes_iff.2 ⟨inner, rest, rfl, inLine, more⟩
    have typed := isType_iff.2 ⟨quote, member, _, rfl, closing⟩
    have later := hasType_iff.2 ⟨gap, _, rfl, lined, typed⟩
    have named : scriptTag.isPrefixOf? (scriptTag ++ gap ++ (typeAttribute ++ quote ++ templateType) ++
        inner ++ '>' :: rest) = some (gap ++ (typeAttribute ++ quote ++ templateType ++
          (inner ++ '>' :: rest))) := by
      rw [List.isPrefixOf?_eq_some_iff_append_eq]
      simp only [List.append_assoc]
    unfold starts
    rw [named]
    exact later

/-! ### Places -/

/-- A nested template stands in a text: the script tag at number `tag`, what it says of the type at
number `type`, and the bracket that closes it at number `bracket`. -/
structure TagAt (text : List Char) (tag type bracket : Nat) : Prop where
  named : scriptTag <+: text.drop tag
  apart : tag + scriptTag.length ≤ type
  /-- At most one quote is between the name of the attribute and the template type. -/
  typed : ∃ quote ∈ quotes, typeAttribute ++ quote ++ templateType <+: text.drop type ∧
    type + (typeAttribute ++ quote ++ templateType).length ≤ bracket
  closed : text[bracket]? = some '>'
  lined : ∀ i, tag ≤ i → i ≤ bracket → text[i]? ≠ some '\n'
  followed : bracket + 1 < text.length

theorem TagAt.starts {tag type bracket : Nat} (stands : TagAt text tag type bracket) :
    starts (text.drop tag) = true := by
  obtain ⟨named, apart, ⟨quote, member, typed, beyond⟩, closed, lined, followed⟩ := stands
  generalize word : typeAttribute ++ quote ++ templateType = written at typed beyond
  have unfed {start stop : Nat} (lower : tag ≤ start) (upper : stop ≤ bracket + 1) :
      '\n' ∉ (text.take stop).drop start := by
    intro feed
    obtain ⟨i, after, before, found⟩ := Text.getElem?_of_mem_slice feed
    exact lined i (Nat.le_trans lower after) (by omega) found
  have more : text.drop (bracket + 1) ≠ [] := by
    rw [Ne, List.drop_eq_nil_iff]
    omega
  have bracketed : text.drop bracket = '>' :: text.drop (bracket + 1) := by
    obtain ⟨within, here⟩ := List.getElem?_eq_some_iff.1 closed
    rw [List.drop_eq_getElem_cons within, here]
  have split : text.drop tag = scriptTag ++ (text.take type).drop (tag + scriptTag.length) ++ written ++
      (text.take bracket).drop (type + written.length) ++ '>' :: text.drop (bracket + 1) := by
    rw [← Text.append_drop_of_prefix named, ← Text.slice_append_drop apart,
      ← Text.append_drop_of_prefix typed, ← Text.slice_append_drop beyond, bracketed]
    simp only [List.append_assoc]
  exact starts_iff.2 ⟨_, quote, member, _, _, unfed (by omega) (by omega), unfed (by omega) (by omega),
    more, word ▸ split⟩

theorem exists_tagAt {tag : Nat} (started : NestedTemplate.starts (text.drop tag) = true) :
    ∃ type bracket, TagAt text tag type bracket := by
  obtain ⟨gap, quote, member, inner, rest, lined, inLine, more, split⟩ := starts_iff.1 started
  have unfed : '\n' ∉ scriptTag ++ gap ++ (typeAttribute ++ quote ++ templateType) ++ inner ++ ['>'] := by
    have inTag : '\n' ∉ scriptTag := by decide
    have inType : ∀ quote ∈ quotes, '\n' ∉ typeAttribute ++ quote ++ templateType := by decide
    have inType := inType quote member
    simp only [List.mem_append, List.mem_singleton, not_or] at inType ⊢
    exact ⟨⟨⟨⟨inTag, lined⟩, inType⟩, inLine⟩, by decide⟩
  generalize word : typeAttribute ++ quote ++ templateType = written at split unfed
  have front : text.drop tag = scriptTag ++ (gap ++ (written ++ (inner ++ '>' :: rest))) := by
    rw [split]
    simp only [List.append_assoc]
  have atType := Text.drop_length_add (Text.drop_length_add front)
  have atBracket := Text.drop_length_add (Text.drop_length_add atType)
  generalize start : tag + scriptTag.length + gap.length = type at atType atBracket
  generalize stop : type + written.length + inner.length = bracket at atBracket
  have past : bracket + 1 < text.length := by
    have shorter := congrArg List.length atBracket
    have filled := List.length_pos_iff.2 more
    rw [List.length_drop, List.length_cons] at shorter
    omega
  refine ⟨type, bracket, ?_, by omega, ⟨quote, member, ?_, ?_⟩, ?_, ?_, past⟩
  · exact front ▸ List.prefix_append _ _
  · exact atType ▸ word ▸ List.prefix_append _ _
  · rw [word]
    omega
  · rw [← Nat.add_zero bracket, ← List.getElem?_drop, atBracket]
    rfl
  · intro i lower upper feed
    have whole : text.drop tag =
        (scriptTag ++ gap ++ written ++ inner ++ ['>']) ++ rest := by
      rw [split, List.append_assoc _ ['>'] rest]
      rfl
    have within : i - tag < (scriptTag ++ gap ++ written ++ inner ++ ['>']).length := by
      simp only [List.length_append, List.length_singleton]
      omega
    rw [← Nat.add_sub_of_le lower, ← List.getElem?_drop, whole, List.getElem?_append_left within] at feed
    exact unfed (List.mem_of_getElem? feed)

theorem starts_drop_iff {tag : Nat} :
    starts (text.drop tag) = true ↔ ∃ type bracket, TagAt text tag type bracket :=
  ⟨exists_tagAt, fun ⟨_, _, stands⟩ => stands.starts⟩

/-- The search finds the first place where a nested template starts. -/
theorem isLeast_of_find? {before : List Char} (found : find? text = some before) :
    IsLeast {i | starts (text.drop i) = true} before.length ∧ before = text.take before.length := by
  induction text generalizing before with
  | nil => exact nomatch found
  | cons c rest ih =>
    unfold find? at found
    split at found
    · next started =>
      obtain rfl := Option.some.inj found
      exact ⟨⟨started, fun _ _ => Nat.zero_le _⟩, rfl⟩
    · next other =>
      obtain ⟨inner, within, rfl⟩ := Option.map_eq_some_iff.1 found
      obtain ⟨⟨started, first⟩, taken⟩ := ih within
      refine ⟨⟨started, ?_⟩, congrArg (c :: ·) taken⟩
      intro i later
      cases i with
      | zero => exact absurd later other
      | succ i => exact Nat.succ_le_succ (first later)

end NestedTemplate

namespace TemplateError

open NestedTemplate (TagAt)

variable {text : List Char}

/-- The error is at the first byte of the first script tag that is part of a nested template. -/
theorem ofText?_eq_some_iff {error : TemplateError} :
    ofText? text = some error ↔
      ∃ tag, IsLeast {tag | ∃ type bracket, TagAt text tag type bracket} tag ∧
        error = nested (.ofOffset text (Text.bytes (text.take tag)).length) := by
  have located (tag : Nat) : Location.ofOffset text (Text.bytes (text.take tag)).length =
      .after (Text.bytes (text.take tag)) := by
    have place := Location.ofOffset_append (text.take tag) (text.drop tag)
    rwa [List.take_append_drop] at place
  simp only [← NestedTemplate.starts_drop_iff, located]
  constructor
  · intro failed
    obtain ⟨before, found, rfl⟩ := Option.map_eq_some_iff.1 failed
    obtain ⟨first, taken⟩ := NestedTemplate.isLeast_of_find? found
    exact ⟨before.length, first, by rw [← taken]⟩
  · rintro ⟨tag, first, rfl⟩
    have present : (NestedTemplate.find? text).isSome = true :=
      NestedTemplate.isSome_find?_iff.2 ⟨_, _, (List.take_append_drop tag text).symm, first.1⟩
    obtain ⟨before, found⟩ := Option.isSome_iff_exists.1 present
    obtain ⟨least, taken⟩ := NestedTemplate.isLeast_of_find? found
    rw [ofText?, found, first.unique least, ← taken]
    rfl

theorem ofText?_isSome_iff :
    (ofText? text).isSome = true ↔ ∃ tag type bracket, TagAt text tag type bracket := by
  rw [ofText?, Option.isSome_map, NestedTemplate.isSome_find?_iff]
  constructor
  · rintro ⟨before, rest, rfl, started⟩
    refine ⟨before.length, NestedTemplate.exists_tagAt ?_⟩
    rwa [List.drop_left]
  · rintro ⟨tag, type, bracket, stands⟩
    exact ⟨text.take tag, text.drop tag, (List.take_append_drop tag text).symm, stands.starts⟩

/-- A text is refused just when a nested template stands in it, with the place of the first one. It
goes through validation as it is otherwise. -/
theorem validated (text : List Char) :
    ((ofText? text).isSome = true ↔ ∃ tag type bracket, TagAt text tag type bracket) ∧
      (∀ error, ofText? text = some error ↔
        ∃ tag, IsLeast {tag | ∃ type bracket, TagAt text tag type bracket} tag ∧
          error = nested (.ofOffset text (Text.bytes (text.take tag)).length)) ∧
      ∀ hook? header bench,
        ((Stage.validate.perform hook? (String.ofList text) header).run.run bench).1 =
          match ofText? text with
          | some error => .error error
          | none => .ok (String.ofList text, header) := by
  refine ⟨ofText?_isSome_iff, fun error => ofText?_eq_some_iff, ?_⟩
  intro hook? header bench
  cases outcome : ofText? text with
  | some error => exact congrArg Prod.fst (Workbench.run_validate_of_nested outcome)
  | none => exact congrArg Prod.fst (Workbench.run_validate_of_plain outcome)

end TemplateError

end ScriptedMarkup
