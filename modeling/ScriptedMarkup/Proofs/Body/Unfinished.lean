import ScriptedMarkup.Proofs.Body.Hoisting
import ScriptedMarkup.Proofs.Scan.Unfinished

/-!
# Sources that end within a capture

A bound capture that is not closed is dropped, from its sigil on. An expression that is not closed
has a piece already, which stays with all that has been captured (`Body.draft_of_unfinished`).
-/

namespace ScriptedMarkup.Body

/-- What is left in the draft of a capture that is not closed. -/
def leftover : Capture → List Char → List Piece
  | .expression, text => [.expression (String.ofList text)]
  | .bound _, _ => []

theorem leftover_eq_nil_iff (capture : Capture) (text : List Char) :
    leftover capture text = [] ↔ capture ≠ .expression := by
  cases capture <;> simp [leftover]

theorem pieces_capturing (draft : Draft) (capture : Capture) (text : List Char) :
    (draft.capturing capture (String.ofList text)).pieces =
      draft.pieces ++ leftover capture text := by
  cases capture with
  | expression => exact Draft.pieces_push _ _
  | bound binding => exact (List.append_nil _).symm

theorem pieces_finish {scan : Scan} {capture : Capture} (mode : scan.lexing.mode = .markup)
    (active : scan.lexing.capture = some capture) :
    (finish scan).pieces = scan.draft.pieces ++ [.closeLiteral, .code epilogue] := by
  have shown : epilogue.isEmpty = false := by decide
  simp [finish, mode, active, Draft.code, Draft.push, Draft.pieces, Draft.release, shown]

theorem captures_of_active {names : NameSupply} {source : String} {capture : Capture}
    (active : (scan names source).lexing.capture = some capture) :
    ∃ before sigil place brace inner depth,
      Signal.ofSource source = before ++ .visit sigil place :: .visit '{' brace :: inner ∧
      (start names).CapturedFrom capture before sigil place (.visit '{' brace :: inner) ∧
      (scan names source).Captures ((start names).run before) capture depth
        (Signal.spelled inner) := by
  have whole : Signal.ofSource source = Signal.ofSource source ++ [] := (List.append_nil _).symm
  obtain ⟨unread, reached, ended⟩ := reached_of_ofSource_eq (start names) whole
  have phase := reached.phase_of_begins (begins_start names)
  obtain ⟨before, sigil, place, after, split, from', captured⟩ :=
    reached.capturedFrom (begins_start names) active
  have rest : unread.rest = [] := by
    cases unread with
    | lines => rfl
    | within => simp [Unread.signals] at ended
  rw [rest] at phase
  obtain ⟨brace, inner, depth, rfl, captures⟩ := captured.captures phase
  exact ⟨before, sigil, place, brace, inner, depth, split, from', captures⟩

/-- A source that ends within a capture has the helpers and names from before the sigil. So has it
the pieces, with the end of the literal after them, unless the capture is an expression. -/
theorem draft_of_unfinished {names : NameSupply} {source : String} {capture : Capture}
    (active : (scan names source).lexing.capture = some capture) :
    ∃ before sigil place brace inner,
      Signal.ofSource source = before ++ .visit sigil place :: .visit '{' brace :: inner ∧
      (start names).CapturedFrom capture before sigil place (.visit '{' brace :: inner) ∧
      (draft names source).helpers = ((start names).run before).draft.helpers ∧
      (compile names source).2 = ((start names).run before).names ∧
      (draft names source).pieces =
        ((start names).run before).draft.pieces ++ leftover capture (Signal.spelled inner) ++
          [.closeLiteral, .code epilogue] ∧
      ((draft names source).pieces =
          ((start names).run before).draft.pieces ++ [.closeLiteral, .code epilogue] ↔
        capture ≠ .expression) := by
  obtain ⟨before, sigil, place, brace, inner, depth, split, from', captures⟩ :=
    captures_of_active active
  have pieces : (draft names source).pieces =
      ((start names).run before).draft.pieces ++ leftover capture (Signal.spelled inner) ++
        [.closeLiteral, .code epilogue] := by
    rw [draft, pieces_finish captures.mode active, captures.draft, pieces_capturing]
  refine ⟨before, sigil, place, brace, inner, split, from', ?_, captures.names, pieces, ?_⟩
  · rw [draft, helpers_finish, captures.draft, Draft.helpers_capturing]
  · rw [pieces, List.append_left_inj, ← leftover_eq_nil_iff capture (Signal.spelled inner)]
    exact List.append_right_eq_self

/-- An expression that is not closed stays. -/
theorem draft_of_unfinished_expression :
    (scan {} "<p>$\x7ba").lexing.capture = some .expression ∧
      ∃ before place brace inner,
        Signal.ofSource "<p>$\x7ba" = before ++ .visit '$' place :: .visit '{' brace :: inner ∧
        ((start {}).run before).lexing.capture = none ∧
        (draft {} "<p>$\x7ba").pieces ≠
          ((start {}).run before).draft.pieces ++ [.closeLiteral, .code epilogue] := by
  have active : (scan {} "<p>$\x7ba").lexing.capture = some .expression := by decide +kernel
  obtain ⟨before, sigil, place, brace, inner, split, from', -, -, -, dropped⟩ :=
    draft_of_unfinished active
  rcases ofSigil?_eq_some_iff.1 from'.starts with ⟨rfl, -⟩ | ⟨-, other⟩ | ⟨-, other⟩
  · exact ⟨active, before, place, brace, inner, split, from'.idle, fun same => dropped.1 same rfl⟩
  · exact absurd other (by simp)
  · exact absurd other (by simp)

end ScriptedMarkup.Body
