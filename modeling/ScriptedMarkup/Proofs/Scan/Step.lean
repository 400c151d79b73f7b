import ScriptedMarkup.Body

/-!
# Steps by lexical state

What a scan does about one character, for each lexical state that a run can be in. Later proofs
rewrite with these equations and do not unfold `Scan.step`.
-/

namespace ScriptedMarkup

/-- A character that no state of markup does anything about. -/
def Inert (c : Char) : Prop :=
  c ≠ '{' ∧ c ≠ '}' ∧ c ≠ '+' ∧ c ≠ '@' ∧ Capture.ofSigil? c = none

theorem ofSigil?_eq_some_iff {c : Char} {capture : Capture} :
    Capture.ofSigil? c = some capture ↔
      c = '$' ∧ capture = .expression ∨ c = '#' ∧ capture = .bound .callback ∨
        c = '?' ∧ capture = .bound .getter := by
  unfold Capture.ofSigil?
  split <;> simp_all [eq_comm]

theorem inert_of_continuesName {c : Char} (h : Shorthand.continuesName c = true) : Inert c := by
  refine ⟨?_, ?_, ?_, ?_, ?_⟩
  iterate 4 rintro rfl; revert h; decide
  · cases sigil : Capture.ofSigil? c with
    | none => rfl
    | some capture =>
      rcases ofSigil?_eq_some_iff.1 sigil with ⟨rfl, -⟩ | ⟨rfl, -⟩ | ⟨rfl, -⟩ <;>
        exact absurd h (by decide)

/-- A draft that has captured `text` so far. -/
def Draft.capturing (draft : Draft) : Capture → String → Draft
  | .expression, text => draft.push (.expression text)
  | .bound _, text => { draft with held := some text }

namespace Shorthand

theorem read_capturing (place : Cursor) (call : AttributeCall) (width : Nat) :
    read true place ≠ .write call width := by
  unfold read
  split
  · simp
  · split <;> simp

end Shorthand

theorem Act.read_sigil {lexing : Lexing} {c : Char} {place : Cursor} {capture : Capture}
    (mode : lexing.mode = .markup) (idle : lexing.capture = none)
    (sigil : Capture.ofSigil? c = some capture) (brace : place.ahead ['{'] = true) :
    read lexing c place = .beginCapture capture := by
  have notPlus : c ≠ '+' := by rintro rfl; simp [Capture.ofSigil?] at sigil
  have notAt : c ≠ '@' := by rintro rfl; simp [Capture.ofSigil?] at sigil
  simp [read, inMarkup, mode, idle, notPlus, notAt, sigil, brace]

namespace Scan

variable {scan : Scan} {c : Char} {place : Cursor}

/-! ### What only acts change -/

theorem capture_receive (scan : Scan) (c : Char) :
    (scan.receive c).lexing.capture = scan.lexing.capture := by
  unfold receive
  split <;> rfl

/-- A character is passed on or uses up one of those that are withheld. -/
theorem withheld_receive (scan : Scan) (c : Char) :
    (scan.receive c).lexing.withheld = scan.lexing.withheld - 1 := by
  unfold receive
  split
  · next passes =>
    have none : scan.lexing.withheld = 0 := by simpa [Lexing.passes] using passes
    rw [none]
  · rfl

theorem names_receive (scan : Scan) (c : Char) : (scan.receive c).names = scan.names := by
  unfold receive
  split <;> rfl

theorem capture_endLine (scan : Scan) : scan.endLine.lexing.capture = scan.lexing.capture := by
  unfold endLine
  dsimp only
  split
  · split <;> rfl
  · rfl
  · rfl

theorem names_endLine (scan : Scan) : scan.endLine.names = scan.names := by
  unfold endLine
  dsimp only
  split
  · split <;> rfl
  · rfl
  · rfl

/-! ### Statements -/

theorem step_statement (mode : scan.lexing.mode = .script) (idle : scan.lexing.capture = none)
    (passes : scan.lexing.withheld = 0) (other : ¬(c = '<' ∧ place.isFirst = true)) :
    scan.step (.visit c place) = { scan with draft := scan.draft.codeChar c } := by
  simp [step, Act.read, Act.inScript, mode, other, perform, receive, Lexing.passes, passes, extend,
    idle]

theorem step_opening (mode : scan.lexing.mode = .script) (idle : scan.lexing.capture = none)
    (passes : scan.lexing.withheld = 0) (first : place.isFirst = true) :
    scan.step (.visit '<' place) =
      { scan with
        lexing := { scan.lexing with mode := .markup, anchor := scan.draft.size }
        draft := (scan.draft.push .openLiteral).textChar '<' } := by
  simp [step, Act.read, Act.inScript, mode, first, perform, receive, Lexing.passes, Lexing.enter,
    passes, extend, idle]

/-! ### Markup outside captures -/

theorem step_literal (mode : scan.lexing.mode = .markup) (idle : scan.lexing.capture = none)
    (passes : scan.lexing.withheld = 0)
    (plain : scan.perform (Act.inMarkup c place) = scan) :
    scan.step (.visit c place) = { scan with draft := scan.draft.textChar c } := by
  simp [step, Act.read, mode, idle, plain, receive, Lexing.passes, passes, extend]

theorem step_lead (mode : scan.lexing.mode = .markup) (idle : scan.lexing.capture = none)
    (passes : scan.lexing.withheld = 0) (first : place.isFirst = true)
    (led : scan.lexing.plusLed = true) : scan.step (.visit '+' place) = scan := by
  obtain ⟨⟨_, _, _, _, _, _, _, _⟩, _, _⟩ := scan
  cases mode; cases idle; cases passes; cases led
  simp [step, Act.read, Act.inMarkup, first, perform, receive, Lexing.passes, Lexing.consume]

theorem step_carry (mode : scan.lexing.mode = .markup) (idle : scan.lexing.capture = none)
    (passes : scan.lexing.withheld = 0) (notFirst : place.isFirst = false)
    (last : place.isLast = true) :
    scan.step (.visit '+' place) =
      { scan with lexing := { scan.lexing with continues := true } } := by
  obtain ⟨⟨_, _, _, _, _, _, _, _⟩, _, _⟩ := scan
  cases mode; cases idle; cases passes
  simp [step, Act.read, Act.inMarkup, notFirst, last, perform, receive, Lexing.passes,
    Lexing.consume]

theorem step_write (mode : scan.lexing.mode = .markup) (idle : scan.lexing.capture = none)
    {call : AttributeCall} {width : Nat}
    (read : Shorthand.read false place = .write call (width + 1)) :
    scan.step (.visit '@' place) =
      { scan with
        lexing := { scan.lexing with withheld := width }
        draft := scan.draft.writeCall call } := by
  simp [step, Act.read, Act.inMarkup, mode, idle, read, perform, receive, Lexing.passes,
    Lexing.consume]

theorem step_sigil (mode : scan.lexing.mode = .markup) (idle : scan.lexing.capture = none)
    {capture : Capture} (sigil : Capture.ofSigil? c = some capture)
    (brace : place.ahead ['{'] = true) :
    scan.step (.visit c place) =
      { scan with
        lexing := { scan.lexing with capture := some capture, depth := 0, withheld := 1 }
        draft := scan.draft.capturing capture "" } := by
  rw [step, Act.read_sigil mode idle sigil brace]
  cases capture <;> rfl

theorem step_withheld (mode : scan.lexing.mode = .markup) (idle : scan.lexing.capture = none)
    {left : Nat} (withheld : scan.lexing.withheld = left + 1)
    (plain : scan.perform (Act.inMarkup c place) = scan) :
    scan.step (.visit c place) = { scan with lexing := { scan.lexing with withheld := left } } := by
  simp [step, Act.read, mode, idle, plain, receive, Lexing.passes, Lexing.consume, withheld]

theorem perform_inMarkup_of_inert (inert : Inert c) :
    scan.perform (Act.inMarkup c place) = scan := by
  obtain ⟨-, -, notPlus, notAt, notSigil⟩ := inert
  simp [Act.inMarkup, notPlus, notAt, notSigil, perform]

theorem perform_inMarkup_of_repeated (behind : place.behind ['@'] = true) :
    scan.perform (Act.inMarkup '@' place) = scan := by
  simp [Act.inMarkup, Shorthand.read, behind, perform]

/-! ### Captures -/

variable {capture : Capture}

theorem extend_expression (active : scan.lexing.capture = some .expression) :
    scan.extend c = scan.draft.expressionChar c := by
  simp [extend, active]

theorem extend_bound {binding : Binding} (active : scan.lexing.capture = some (.bound binding)) :
    scan.extend c = scan.draft.heldChar c := by
  simp [extend, active]

theorem extend_capturing {draft : Draft} {text : String}
    (active : scan.lexing.capture = some capture)
    (captured : scan.draft = draft.capturing capture text) :
    scan.extend c = draft.capturing capture (text.push c) := by
  cases capture with
  | expression =>
    rw [extend_expression active, captured]
    rfl
  | bound binding =>
    rw [extend_bound active, captured]
    rfl

theorem step_brace (mode : scan.lexing.mode = .markup)
    (active : scan.lexing.capture = some capture) (withheld : scan.lexing.withheld = 1) :
    scan.step (.visit '{' place) =
      { scan with
        lexing := { scan.lexing with depth := scan.lexing.depth + 1, withheld := 0 } } := by
  simp [step, Act.read, Act.inCapture, mode, active, perform, receive, Lexing.passes,
    Lexing.consume, withheld]

theorem step_deepen (mode : scan.lexing.mode = .markup)
    (active : scan.lexing.capture = some capture) (passes : scan.lexing.withheld = 0) :
    scan.step (.visit '{' place) =
      { scan with
        lexing := { scan.lexing with depth := scan.lexing.depth + 1 }
        draft := scan.extend '{' } := by
  simp [step, Act.read, Act.inCapture, mode, active, perform, receive, Lexing.passes, passes,
    extend]

theorem step_rise (mode : scan.lexing.mode = .markup)
    (active : scan.lexing.capture = some capture) (passes : scan.lexing.withheld = 0)
    (deep : 1 < scan.lexing.depth) :
    scan.step (.visit '}' place) =
      { scan with
        lexing := { scan.lexing with depth := scan.lexing.depth - 1 }
        draft := scan.extend '}' } := by
  simp [step, Act.read, Act.inCapture, mode, active, Nat.not_le.2 deep, perform, receive,
    Lexing.passes, passes, extend]

theorem perform_inCapture_of_ne (notOpening : c ≠ '{') (notClosing : c ≠ '}') (capture : Capture)
    (depth : Nat) : scan.perform (Act.inCapture capture depth c place) = scan := by
  unfold Act.inCapture
  rw [if_neg notOpening, if_neg notClosing]
  split
  · cases read : Shorthand.read true place with
    | write call width => exact absurd read (Shorthand.read_capturing place call width)
    | _ => rfl
  · rfl

theorem step_captured (mode : scan.lexing.mode = .markup)
    (active : scan.lexing.capture = some capture) (passes : scan.lexing.withheld = 0)
    (notOpening : c ≠ '{') (notClosing : c ≠ '}') :
    scan.step (.visit c place) = { scan with draft := scan.extend c } := by
  have plain : scan.perform (Act.inCapture capture scan.lexing.depth c place) = scan :=
    perform_inCapture_of_ne notOpening notClosing capture scan.lexing.depth
  simp [step, Act.read, mode, active, plain, receive, Lexing.passes, passes, extend]

theorem step_endExpression (mode : scan.lexing.mode = .markup)
    (active : scan.lexing.capture = some .expression) (passes : scan.lexing.withheld = 0)
    (shallow : scan.lexing.depth ≤ 1) :
    scan.step (.visit '}' place) =
      { scan with lexing := { scan.lexing with capture := none, depth := 0 } } := by
  obtain ⟨⟨_, _, _, _, _, _, _, _⟩, _, _⟩ := scan
  cases mode; cases active; cases passes
  simp only at shallow
  simp [step, Act.read, Act.inCapture, shallow, perform, Lexing.endCapture, receive,
    Lexing.passes, Lexing.consume]

theorem step_endBound {binding : Binding} (mode : scan.lexing.mode = .markup)
    (active : scan.lexing.capture = some (.bound binding)) (passes : scan.lexing.withheld = 0)
    (shallow : scan.lexing.depth ≤ 1) :
    scan.step (.visit '}' place) =
      { lexing := { scan.lexing with capture := none, depth := 0 }
        draft :=
          (scan.draft.release.2.hoist
            { anchor := scan.lexing.anchor
              binding
              name := NameSupply.nameOf (scan.names.issued + 1)
              body := scan.draft.release.1 }).push
            (.reference binding (NameSupply.nameOf (scan.names.issued + 1)))
        names := ⟨scan.names.issued + 1⟩ } := by
  obtain ⟨⟨_, _, _, _, _, _, _, _⟩, _, _⟩ := scan
  cases mode; cases active; cases passes
  simp only at shallow
  simp [step, Act.read, Act.inCapture, shallow, perform, Lexing.endCapture, bind, NameSupply.next,
    receive, Lexing.passes, Lexing.consume]

/-! ### Ends of lines -/

theorem endLine_script (mode : scan.lexing.mode = .script) (idle : scan.lexing.capture = none) :
    scan.endLine =
      { scan with
        lexing := { scan.lexing with continues := false }
        draft := scan.draft.codeChar '\n' } := by
  simp [endLine, mode, idle]

theorem endLine_carried (mode : scan.lexing.mode = .markup) (idle : scan.lexing.capture = none)
    (carried : scan.lexing.continues = true) :
    scan.endLine =
      { scan with
        lexing := { scan.lexing with continues := false }
        draft := scan.draft.push .lineBreak } := by
  simp [endLine, mode, idle, carried]

theorem endLine_closing (mode : scan.lexing.mode = .markup) (idle : scan.lexing.capture = none)
    (ends : scan.lexing.continues = false) :
    scan.endLine =
      { scan with
        lexing := { scan.lexing with mode := .script }
        draft := (scan.draft.push .closeLiteral).codeChar '\n' } := by
  simp [endLine, mode, idle, ends, Lexing.enter]

theorem endLine_capturing (active : scan.lexing.capture = some capture) :
    scan.endLine =
      { scan with
        lexing := { scan.lexing with continues := false }
        draft := scan.extend '\n' } := by
  simp [endLine, active]

end Scan

end ScriptedMarkup
