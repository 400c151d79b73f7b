import ScriptedMarkup.Proofs.Reading.Basic
import ScriptedMarkup.Proofs.Scan.Phase

/-!
# Captures of a run

`Captures` ties the state within a capture to the state at its sigil: nothing has changed since but
the captured text. Characters and line ends keep it until the brace that closes the capture.
-/

namespace ScriptedMarkup

theorem push_ofList (text : List Char) (c : Char) :
    (String.ofList text).push c = String.ofList (text ++ [c]) :=
  String.toList_inj.1 (by simp)

namespace Scan

/-- The state of a scan that has captured `text` since `origin`, with `depth` braces open in it. -/
structure Captures (scan origin : Scan) (capture : Capture) (depth : Nat) (text : List Char) :
    Prop where
  mode : scan.lexing.mode = .markup
  active : scan.lexing.capture = some capture
  level : scan.lexing.depth = depth + 1
  passes : scan.lexing.withheld = 0
  anchor : scan.lexing.anchor = origin.lexing.anchor
  draft : scan.draft = origin.draft.capturing capture (String.ofList text)
  names : scan.names = origin.names

theorem step_sigil_brace {scan : Scan} {capture : Capture} {c : Char}
    (mode : scan.lexing.mode = .markup) (idle : scan.lexing.capture = none)
    (sigil : Capture.ofSigil? c = some capture) (line : Nat) (before rest : List Char)
    (place : Cursor) :
    (scan.step (.visit c ⟨line, before, c :: '{' :: rest⟩)).step (.visit '{' place) =
      { scan with
        lexing := { scan.lexing with capture := some capture, depth := 1, withheld := 0 }
        draft := scan.draft.capturing capture "" } := by
  have brace : (Cursor.mk line before (c :: '{' :: rest)).ahead ['{'] = true :=
    ahead_singleton_iff.2 rfl
  rw [step_sigil mode idle sigil brace]
  exact step_brace (by exact mode) rfl rfl

theorem captures_of_sigil {scan : Scan} {capture : Capture} {c : Char}
    (mode : scan.lexing.mode = .markup) (idle : scan.lexing.capture = none)
    (sigil : Capture.ofSigil? c = some capture) (line : Nat) (before rest : List Char)
    (place : Cursor) :
    let begun := (scan.step (.visit c ⟨line, before, c :: '{' :: rest⟩)).step (.visit '{' place)
    begun.Captures scan capture 0 [] ∧ begun.lexing.continues = scan.lexing.continues := by
  rw [step_sigil_brace mode idle sigil]
  exact ⟨⟨mode, rfl, rfl, rfl, rfl, rfl, rfl⟩, rfl⟩

namespace Captures

variable {scan origin : Scan} {capture : Capture} {depth : Nat} {text : List Char} {c : Char}
  {place : Cursor}

theorem extend (captures : scan.Captures origin capture depth text) :
    scan.extend c = origin.draft.capturing capture (String.ofList (text ++ [c])) := by
  rw [extend_capturing captures.active captures.draft, push_ofList]

theorem step_eq (captures : scan.Captures origin capture depth text)
    (other : ¬(c = '}' ∧ depth = 0)) :
    scan.step (.visit c place) =
      { scan with
        lexing := { scan.lexing with depth := braceDepth depth c + 1 }
        draft := scan.extend c } := by
  by_cases opening : c = '{'
  · subst opening
    rw [step_deepen captures.mode captures.active captures.passes]
    simp [braceDepth, captures.level]
  by_cases closing : c = '}'
  · subst closing
    have deep : depth ≠ 0 := fun shallow => other ⟨rfl, shallow⟩
    have level := captures.level
    rw [step_rise captures.mode captures.active captures.passes (by omega)]
    simp only [braceDepth, opening, if_false, if_true, level]
    rw [show depth + 1 - 1 = depth - 1 + 1 by omega]
  · rw [step_captured captures.mode captures.active captures.passes opening closing]
    simp [braceDepth, opening, closing, ← captures.level]

theorem visit (captures : scan.Captures origin capture depth text)
    (other : ¬(c = '}' ∧ depth = 0)) :
    (scan.step (.visit c place)).Captures origin capture (braceDepth depth c) (text ++ [c]) := by
  rw [captures.step_eq other]
  exact { captures with level := rfl, draft := captures.extend }

theorem endLine (captures : scan.Captures origin capture depth text) :
    scan.endLine.Captures origin capture depth (text ++ ['\n']) := by
  rw [endLine_capturing captures.active]
  exact { captures with draft := captures.extend }

theorem startLine (captures : scan.Captures origin capture depth text) :
    (scan.startLine place).Captures origin capture depth text :=
  { captures with }

theorem lexing_visit (captures : scan.Captures origin capture depth text)
    (other : ¬(c = '}' ∧ depth = 0)) :
    (scan.step (.visit c place)).lexing =
      { scan.lexing with depth := braceDepth depth c + 1 } := by
  rw [captures.step_eq other]

theorem continues_visit (captures : scan.Captures origin capture depth text)
    (other : ¬(c = '}' ∧ depth = 0)) :
    (scan.step (.visit c place)).lexing.continues = scan.lexing.continues := by
  rw [captures.lexing_visit other]

theorem continues_startLine (captures : scan.Captures origin capture depth text) :
    (scan.startLine place).lexing.continues = scan.lexing.continues := by
  simp [Scan.startLine, captures.active]

theorem continues_endLine (captures : scan.Captures origin capture depth text) :
    scan.endLine.lexing.continues = false := by
  rw [endLine_capturing captures.active]

end Captures

end Scan

end ScriptedMarkup
