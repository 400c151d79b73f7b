import ScriptedMarkup.Proofs.Draft.Passages
import ScriptedMarkup.Proofs.Text.LineStarts

/-!
# Starts of lines in a body

What is captured is written as it stands, with its line breaks. In a body whose other pieces do not
start a line with `<`, such a line comes from captured text alone (`Laid.leads_eq`).
-/

namespace ScriptedMarkup

/-- Statements have no line that starts with `<`, and neither text nor names break a line. -/
def Piece.Lined : Piece → Prop
  | code statements => Text.leads '<' true statements.toList = false
  | text content => '\n' ∉ content.toList
  | call (.html name) | call (.pop name) | reference _ name => '\n' ∉ name.toList
  | openLiteral | expression _ | call .all | lineBreak | closeLiteral => True

/-- Whether captured text in a piece starts a line with `<`. -/
def Piece.leads : Piece → Bool
  | expression source => Text.leads '<' false source.toList
  | _ => false

/-- Whether a declaration starts a line with what is captured. -/
def Binding.startsLine : Binding → Bool
  | callback => true
  | getter => false

namespace Part

def Lined : Part → Prop
  | written piece => piece.Lined
  | declared helper => '\n' ∉ helper.name.toList

def leads : Part → Bool
  | written piece => piece.leads
  | declared helper => Text.leads '<' helper.binding.startsLine helper.body.toList

end Part

open Text (leads_append freshAfter_append leads_of_not_mem freshAfter_of_not_mem)

theorem lined_escapeChar {c : Char} (feed : c ≠ '\n') : '\n' ∉ Text.escapeChar c := by
  unfold Text.escapeChar
  split
  · decide
  split
  · decide
  · simpa using feed.symm

theorem escape_lined {content : String} (lined : '\n' ∉ content.toList) :
    '\n' ∉ (Text.escape content).toList := by
  rw [Text.toList_escape]
  intro member
  obtain ⟨c, inside, member⟩ := List.mem_flatMap.1 member
  refine lined_escapeChar ?_ member
  rintro rfl
  exact lined inside

namespace Draft

variable {helper : Helper} {piece : Piece} {parts : List Part}

theorem leads_declared (lined : '\n' ∉ helper.name.toList) (fresh : Bool) :
    Text.leads '<' fresh (Part.declared helper).render.toList = (Part.declared helper).leads ∧
      Text.freshAfter fresh (Part.declared helper).render.toList = true := by
  obtain ⟨anchor, binding, name, body⟩ := helper
  cases binding <;>
    simp [Part.render, Helper.render, Part.leads, Binding.startsLine, leads_append,
      freshAfter_append, Text.leads, Text.freshAfter, leads_of_not_mem lined,
      freshAfter_of_not_mem lined]

theorem leads_inner (inner : piece.isInner = true) (lined : piece.Lined) :
    Text.leads '<' false piece.render.toList = piece.leads ∧
      Text.freshAfter false piece.render.toList = false := by
  cases piece with
  | code | openLiteral | closeLiteral => simp [Piece.isInner] at inner
  | text content =>
    have escaped := escape_lined lined
    exact ⟨leads_of_not_mem escaped, freshAfter_of_not_mem escaped⟩
  | expression source =>
    simp [splice, Piece.leads, leads_append, freshAfter_append, Text.leads,
      Text.freshAfter]
  | call attributes =>
    cases attributes with
    | html name | pop name =>
      have lined : '\n' ∉ name.toList := lined
      have escaped := escape_lined lined
      rw [Text.toList_escape] at escaped
      simp [AttributeCall.render, attributeName, splice, Piece.leads, leads_append,
        freshAfter_append, Text.leads, Text.freshAfter, leads_of_not_mem escaped,
        freshAfter_of_not_mem escaped]
    | all =>
      simp [AttributeCall.render, attributeName, splice, Piece.leads, Text.leads,
        Text.freshAfter]
  | reference binding name =>
    cases binding <;>
      simp [splice, Piece.leads, leads_append, freshAfter_append, Text.leads,
        Text.freshAfter, leads_of_not_mem lined, freshAfter_of_not_mem lined]
  | lineBreak => simp [Piece.leads, Text.leads, Text.freshAfter]

theorem leads_pieces {inner : List Piece} (within : ∀ piece ∈ inner, piece.isInner = true)
    (lined : ∀ piece ∈ inner, piece.Lined) :
    Text.leads '<' false (Part.text (inner.map .written)) = inner.any Piece.leads ∧
      Text.freshAfter false (Part.text (inner.map .written)) = false := by
  induction inner with
  | nil => exact ⟨rfl, rfl⟩
  | cons piece inner ih =>
    obtain ⟨here, inside⟩ := List.forall_mem_cons.1 within
    obtain ⟨first, rest⟩ := List.forall_mem_cons.1 lined
    obtain ⟨leads, fresh⟩ := leads_inner here first
    obtain ⟨more, after⟩ := ih inside rest
    have render : (Part.written piece).render = piece.render := rfl
    rw [List.map_cons, Part.text_cons, render, leads_append, freshAfter_append, leads, fresh, more,
      after]
    exact ⟨rfl, rfl⟩

theorem leads_literal {inner : List Piece} (within : ∀ piece ∈ inner, piece.isInner = true)
    (lined : ∀ piece ∈ inner, piece.Lined) (fresh : Bool) :
    Text.leads '<' fresh (Part.text ((literal inner).map .written)) =
      ((literal inner).map Part.written).any Part.leads := by
  obtain ⟨leads, after⟩ := leads_pieces within lined
  have opening : Text.leads '<' fresh (Piece.openLiteral.render.toList) = false ∧
      Text.freshAfter fresh (Piece.openLiteral.render.toList) = false := by
    simp [outputName, Text.leads, Text.freshAfter]
  have closing : Text.leads '<' false (Part.text [.written .closeLiteral]) = false := by
    decide
  have render : (Part.written .openLiteral).render = Piece.openLiteral.render := rfl
  have captured : ((literal inner).map Part.written).any Part.leads =
      (false || (inner.any Piece.leads || (false || false))) := by
    rw [literal, List.cons_append, List.map_cons, List.map_append, List.any_cons, List.any_append,
      List.any_map]
    rfl
  rw [captured, literal, List.cons_append, List.map_cons, List.map_append, Part.text_cons,
    Part.text_append, render, leads_append, leads_append, opening.1, opening.2, leads, after,
    List.map_singleton, closing]
  rfl

theorem leads_declarations {helpers : List Helper}
    (lined : ∀ helper ∈ helpers, '\n' ∉ helper.name.toList) (fresh : Bool) :
    Text.leads '<' fresh (Part.text (helpers.map .declared)) =
      (helpers.map Part.declared).any Part.leads := by
  induction helpers generalizing fresh with
  | nil => rfl
  | cons helper helpers ih =>
    obtain ⟨first, rest⟩ := List.forall_mem_cons.1 lined
    obtain ⟨leads, after⟩ := leads_declared first fresh
    rw [List.map_cons, Part.text_cons, leads_append, leads, after, ih rest, List.any_cons]

/-- A line of a body starts with `<` exactly where captured text starts it. -/
theorem Laid.leads_eq (laid : Laid parts) (lined : ∀ part ∈ parts, part.Lined) (fresh : Bool) :
    Text.leads '<' fresh (Part.text parts) = parts.any Part.leads := by
  induction laid generalizing fresh with
  | nil => rfl
  | @code rest statements _ ih =>
    obtain ⟨first, more⟩ := List.forall_mem_cons.1 lined
    have clean : Text.leads '<' fresh statements.toList = false := Text.leads_of_fresh first fresh
    rw [Part.text_cons, leads_append, ih more, List.any_cons]
    exact congrArg (· || _) clean
  | @literal inner rest helpers within _ ih =>
    obtain ⟨declared, others⟩ := List.forall_mem_append.1 lined
    obtain ⟨written, more⟩ := List.forall_mem_append.1 others
    have names : ∀ helper ∈ helpers, '\n' ∉ helper.name.toList := fun helper member =>
      declared _ (List.mem_map_of_mem member)
    have pieces : ∀ piece ∈ inner, piece.Lined := fun piece member =>
      written _ (List.mem_map_of_mem (List.mem_cons_of_mem _ (List.mem_append_left _ member)))
    have leads := leads_literal within pieces
      (Text.freshAfter fresh (Part.text (helpers.map .declared)))
    rw [Part.text_append, Part.text_append, leads_append, leads_append, leads_declarations names,
      leads, ih more, List.any_append, List.any_append]

/-! ### Writing -/

def Lined (draft : Draft) : Prop := ∀ piece ∈ draft.recent, piece.Lined

/-- The last piece is statements that do not end a line. -/
def MidLine (draft : Draft) : Prop :=
  ∃ statements older, draft.recent = .code statements :: older ∧
    Text.freshAfter true statements.toList = false

section Writing

variable {draft : Draft}

theorem Lined.push (lined : draft.Lined) (piece : Piece) (here : piece.Lined) :
    (draft.push piece).Lined :=
  List.forall_mem_cons.2 ⟨here, lined⟩

theorem Lined.code {text : String} (lined : draft.Lined)
    (clean : Text.leads '<' false text.toList = false)
    (starts : draft.MidLine ∨ Text.leads '<' true text.toList = false) :
    (draft.code text).Lined := by
  obtain ⟨recent, helpers, held⟩ := draft
  unfold Draft.code
  split
  · exact lined
  split
  · next before older same =>
    obtain rfl : recent = .code before :: older := same
    obtain ⟨first, rest⟩ := List.forall_mem_cons.1 lined
    refine List.forall_mem_cons.2 ⟨?_, rest⟩
    have first : Text.leads '<' true before.toList = false := first
    show Text.leads '<' true (before ++ text).toList = false
    rw [String.toList_append, leads_append, first, Bool.false_or]
    rcases starts with ⟨_, _, same, fresh⟩ | starts
    · obtain rfl := Piece.code.inj (List.cons.inj same).1
      rwa [fresh]
    · exact Text.leads_of_fresh starts _
  · next other =>
    refine List.forall_mem_cons.2 ⟨?_, lined⟩
    rcases starts with ⟨statements, older, same, -⟩ | starts
    · exact absurd same (other statements older)
    · exact starts

theorem Lined.codeChar {c : Char} (lined : draft.Lined) (starts : c = '<' → draft.MidLine) :
    (draft.codeChar c).Lined := by
  rw [← code_singleton]
  refine lined.code (by simp [Text.leads]) ?_
  by_cases mark : c = '<'
  · exact .inl (starts mark)
  · exact .inr (by simp [Text.leads, mark])

theorem midLine_codeChar {c : Char} (feed : c ≠ '\n') : (draft.codeChar c).MidLine := by
  obtain ⟨recent, helpers, held⟩ := draft
  unfold Draft.codeChar
  split
  · next before older _ =>
    refine ⟨_, _, rfl, ?_⟩
    simp [freshAfter_append, Text.freshAfter, feed]
  · refine ⟨_, _, rfl, ?_⟩
    simp [Text.freshAfter, feed]

theorem Lined.textChar {c : Char} (lined : draft.Lined) (feed : c ≠ '\n') :
    (draft.textChar c).Lined := by
  obtain ⟨recent, helpers, held⟩ := draft
  unfold Draft.textChar
  split
  · next before older same =>
    obtain rfl : recent = .text before :: older := same
    obtain ⟨first, rest⟩ := List.forall_mem_cons.1 lined
    refine List.forall_mem_cons.2 ⟨?_, rest⟩
    have first : '\n' ∉ before.toList := first
    show '\n' ∉ (before.push c).toList
    simp [first, feed.symm]
  · refine List.forall_mem_cons.2 ⟨?_, lined⟩
    show '\n' ∉ (String.singleton c).toList
    simp [feed.symm]

theorem Lined.writeCall {call : AttributeCall} (lined : draft.Lined)
    (named : (Piece.call call).Lined) : (draft.writeCall call).Lined := by
  cases call with
  | pop name =>
    refine List.forall_mem_cons.2 ⟨named, ?_⟩
    cases trimmed : draft.trimText? '-' with
    | none => exact lined
    | some kept =>
      obtain ⟨content, recent, same, -, -, rest⟩ := of_trimText? _ _ trimmed
      unfold Lined at lined
      rw [same] at lined
      obtain ⟨first, older⟩ := List.forall_mem_cons.1 lined
      rcases rest with ⟨-, rest⟩ | rest
      · rwa [Option.getD_some, rest]
      · rw [Option.getD_some, rest]
        refine List.forall_mem_cons.2 ⟨fun member => first ?_, older⟩
        simp [member]
  | html name => exact lined.push _ named
  | all => exact lined.push _ named

theorem Lined.expressionChar (lined : draft.Lined) (c : Char) : (draft.expressionChar c).Lined := by
  obtain ⟨recent, helpers, held⟩ := draft
  unfold Draft.expressionChar
  split
  · next before older same =>
    obtain rfl : recent = .expression before :: older := same
    exact List.forall_mem_cons.2 ⟨trivial, (List.forall_mem_cons.1 lined).2⟩
  · exact lined

end Writing

end Draft

end ScriptedMarkup
