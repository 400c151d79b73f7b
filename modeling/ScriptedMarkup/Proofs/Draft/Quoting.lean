import ScriptedMarkup.Proofs.Draft.Balanced
import ScriptedMarkup.Proofs.Text.Quoting

/-!
# Quoted text of a draft

Every piece of a literal leaves the reader of its text within a literal again, whatever the text
holds (`lexes_piece`). So a literal of a draft is read as what was written into it, and is over
where it was closed (`quoted_of_inner`).
-/

namespace ScriptedMarkup

open Text (Mark Literals Quoting)
open Text.Literals

/-- What stands in a literal before the name that it refers to. -/
def Binding.lead : Binding → String
  | callback => "edb.$run(event,&quot;"
  | getter => "edb.$get(&quot;"

def referenceEnd : String := "&quot;);"

/-! ### Marked pieces -/

def spliceMarks (operand : List Mark) : List Mark :=
  [.own '\''] ++ Mark.fixed " + " ++ operand ++ Mark.fixed " + " ++ [.own '\'']

def namedMarks (method name : String) : List Mark :=
  Mark.fixed (attributeName ++ method ++ " ( ") ++ [.own '\''] ++ Mark.escape name ++ [.own '\''] ++
    Mark.fixed " )"

def AttributeCall.marks : AttributeCall → List Mark
  | html name => namedMarks ".$html" name
  | pop name => namedMarks ".$pop" name
  | all => Mark.fixed (attributeName ++ ".$all()")

/-- The text of a piece, with where it comes from. -/
def Piece.marks : Piece → List Mark
  | code statements => Mark.fixed statements
  | openLiteral => Mark.fixed (outputName ++ ".html += ") ++ [.own '\'']
  | text content => Mark.escape content
  | expression source => spliceMarks (Mark.fixed "(" ++ [.operand source] ++ Mark.fixed ")")
  | call attributes => spliceMarks attributes.marks
  | reference binding name =>
    Mark.fixed binding.lead ++ spliceMarks (Mark.fixed name) ++ Mark.fixed referenceEnd
  | lineBreak => [.own '\''] ++ Mark.fixed " +\n" ++ [.own '\'']
  | closeLiteral => [.own '\''] ++ Mark.fixed ";"

theorem chars_spliceMarks (operand : List Mark) :
    (spliceMarks operand).flatMap Mark.chars =
      "' + ".toList ++ operand.flatMap Mark.chars ++ " + '".toList := by
  simp [spliceMarks, Mark.chars]

theorem chars_marks (piece : Piece) : piece.marks.flatMap Mark.chars = piece.render.toList := by
  cases piece with
  | code statements => exact Mark.chars_fixed statements
  | openLiteral => rfl
  | text content => exact Mark.chars_escape content
  | expression source => simp [Piece.marks, chars_spliceMarks, splice, Mark.chars]
  | call attributes =>
    cases attributes <;>
      simp [Piece.marks, AttributeCall.marks, AttributeCall.render, namedMarks, attributeName,
        chars_spliceMarks, splice, Mark.chars]
  | reference binding name =>
    cases binding <;>
      simp [Piece.marks, Binding.lead, referenceEnd, chars_spliceMarks, splice]
  | lineBreak => rfl
  | closeLiteral => rfl

/-! ### Values of literals -/

def AttributeCall.arguments : AttributeCall → List (List Char)
  | html name | pop name => [name.toList]
  | all => []

/-- The values of the literals so far, the last one first, when another piece is written. -/
def Piece.fill (values : List (List Char)) : Piece → List (List Char)
  | text content => values.modifyHead (· ++ content.toList)
  | expression _ | lineBreak => [] :: values
  | call attributes => [] :: (attributes.arguments ++ values)
  | reference binding _ =>
    referenceEnd.toList :: values.modifyHead (· ++ binding.lead.toList)
  | code _ | openLiteral | closeLiteral => values

theorem Piece.fill_cons (piece : Piece) (value : List Char) (values : List (List Char)) :
    ∃ first more, piece.fill (value :: values) = first :: more := by
  cases piece <;> exact ⟨_, _, rfl⟩

/-- No quote is in a name that a piece refers to. -/
def Piece.Plain (piece : Piece) : Prop :=
  ∀ binding name, piece = reference binding name → '\'' ∉ name.toList

theorem lexes_splice {operand : List Mark} {before after : List (List Char)}
    (lexes : Lexes ⟨.outside, before⟩ operand ⟨.outside, after⟩) :
    Lexes ⟨.inside, before⟩ (spliceMarks operand) ⟨.inside, [] :: after⟩ := by
  have plus (values : List (List Char)) :
      Lexes ⟨.outside, values⟩ (Mark.fixed " + ") ⟨.outside, values⟩ :=
    lexes_outside (by decide) values
  have opened := (lexes_closing before).append (plus before)
  exact ((opened.append lexes).append (plus after)).append (lexes_opening after)

theorem lexes_named {method : String} (plain : '\'' ∉ method.toList) (name : String)
    (values : List (List Char)) :
    Lexes ⟨.outside, values⟩ (namedMarks method name) ⟨.outside, name.toList :: values⟩ := by
  have before : '\'' ∉ (attributeName ++ method ++ " ( ").toList := by
    simp [attributeName, plain]
  have opened := (lexes_outside before values).append (lexes_opening values)
  have quoted := opened.append (lexes_escape name [] values)
  have closed := quoted.append (lexes_closing _)
  exact closed.append (lexes_outside (by decide) _)

theorem lexes_call (attributes : AttributeCall) (values : List (List Char)) :
    Lexes ⟨.outside, values⟩ attributes.marks ⟨.outside, attributes.arguments ++ values⟩ := by
  cases attributes with
  | html name => exact lexes_named (by decide) name values
  | pop name => exact lexes_named (by decide) name values
  | all => exact lexes_outside (by decide) values

theorem lexes_piece {piece : Piece} (inner : piece.isInner = true) (plain : piece.Plain)
    (value : List Char) (values : List (List Char)) :
    Lexes ⟨.inside, value :: values⟩ piece.marks ⟨.inside, piece.fill (value :: values)⟩ := by
  cases piece with
  | code | openLiteral | closeLiteral => simp [Piece.isInner] at inner
  | text content => exact lexes_escape content value values
  | expression source =>
    have opened := (lexes_outside (by decide : '\'' ∉ "(".toList) (value :: values)).append
      (lexes_operand source _)
    exact lexes_splice (opened.append (lexes_outside (by decide) _))
  | call attributes => exact lexes_splice (lexes_call attributes _)
  | reference binding name =>
    have lead : '\'' ∉ binding.lead.toList ∧ '\\' ∉ binding.lead.toList := by
      cases binding <;> decide
    have spliced := (lexes_fixed lead value values).append
      (lexes_splice (lexes_outside (plain binding name rfl) _))
    exact spliced.append (lexes_fixed (by decide) [] _)
  | lineBreak =>
    have broken := (lexes_closing (value :: values)).append
      (lexes_outside (by decide : '\'' ∉ " +\n".toList) _)
    exact broken.append (lexes_opening _)

theorem lexes_inner {inner : List Piece} (within : ∀ piece ∈ inner, piece.isInner = true)
    (plain : ∀ piece ∈ inner, piece.Plain) (value : List Char) (values : List (List Char)) :
    Lexes ⟨.inside, value :: values⟩ (inner.flatMap Piece.marks)
      ⟨.inside, inner.foldl Piece.fill (value :: values)⟩ := by
  induction inner generalizing value values with
  | nil => exact .nil _
  | cons piece inner ih =>
    obtain ⟨here, inside⟩ := List.forall_mem_cons.1 within
    obtain ⟨first, rest⟩ := List.forall_mem_cons.1 plain
    obtain ⟨next, more, filled⟩ := piece.fill_cons value values
    have lexes := lexes_piece here first value values
    rw [List.foldl_cons, filled]
    rw [filled] at lexes
    exact lexes.append (ih inside rest next more)

namespace Draft

/-- A literal is read as it was written: its pieces start and end within it, only what the writer
added starts and ends it, and the values are those that the pieces give it. -/
structure Quoted (inner : List Piece) : Prop where
  written : ((literal inner).flatMap Piece.marks).flatMap Mark.chars =
    (String.join ((literal inner).map Piece.render)).toList
  inside : ∀ before, before <+: inner →
    (Literals.run {} ((Piece.openLiteral :: before).flatMap Piece.marks)).quoting = .inside
  keeps : ∀ before mark after, (literal inner).flatMap Piece.marks = before ++ mark :: after →
    (Literals.run {} before).Keeps mark
  values : Literals.run {} ((literal inner).flatMap Piece.marks) =
    ⟨.outside, inner.foldl Piece.fill [[]]⟩

theorem lexes_open {inner : List Piece} (within : ∀ piece ∈ inner, piece.isInner = true)
    (plain : ∀ piece ∈ inner, piece.Plain) :
    Lexes {} ((Piece.openLiteral :: inner).flatMap Piece.marks)
      ⟨.inside, inner.foldl Piece.fill [[]]⟩ := by
  have opened := (lexes_outside (by decide : '\'' ∉ (outputName ++ ".html += ").toList) []).append
    (lexes_opening [])
  exact opened.append (lexes_inner within plain [] [])

theorem quoted_of_inner {inner : List Piece} (within : ∀ piece ∈ inner, piece.isInner = true)
    (plain : ∀ piece ∈ inner, piece.Plain) : Quoted inner := by
  have closed := ((lexes_open within plain).append (lexes_closing _)).append
    (lexes_outside (by decide : '\'' ∉ ";".toList) _)
  have whole : Lexes {} ((literal inner).flatMap Piece.marks)
      ⟨.outside, inner.foldl Piece.fill [[]]⟩ := by
    rw [literal, List.flatMap_append]
    rw [List.append_assoc] at closed
    exact closed
  refine ⟨?_, ?_, ?_, whole.run_eq⟩
  · simp only [List.flatMap_assoc, chars_marks, String.toList_join, List.flatMap_map]
  · intro before part
    have lexes := lexes_open (fun piece member => within piece (part.subset member))
      fun piece member => plain piece (part.subset member)
    rw [lexes.run_eq]
  · intro before mark after split
    rw [split] at whole
    exact whole.keeps

end Draft

end ScriptedMarkup
