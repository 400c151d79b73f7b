import ScriptedMarkup.Proofs.Draft.Balanced
import ScriptedMarkup.Proofs.Scan.Phase

/-!
# Balanced runs

A literal is open in a draft exactly when the scan reads markup, at every point of a run
(`Reached.opened_balanced`).
-/

namespace ScriptedMarkup

/-- The number of the piece that opened the literal that is being read. -/
def Lexing.opened? (lexing : Lexing) : Option Nat :=
  if lexing.mode = .markup then some lexing.anchor else none

namespace Lexing

theorem opened?_of_script {lexing : Lexing} (mode : lexing.mode = .script) :
    lexing.opened? = none := by
  simp [opened?, mode]

theorem opened?_of_markup {lexing : Lexing} (mode : lexing.mode = .markup) :
    lexing.opened? = some lexing.anchor := by
  simp [opened?, mode]

end Lexing

namespace Scan

/-- A scan of markup has one literal that is not closed, after a complete part of a body. A scan of
script has only that part. -/
structure Balanced (scan : Scan) : Prop where
  notTag : scan.lexing.mode ≠ .tag
  script : scan.lexing.mode = .script ↔ Draft.Complete scan.draft.pieces
  markup : scan.lexing.mode = .markup ↔ Draft.Unfinished scan.lexing.anchor scan.draft.pieces

variable {scan : Scan} {prologue : String} {anchor : Nat}

theorem balanced_extend (mode : scan.lexing.mode = .markup)
    (balanced : Draft.Balanced prologue (some anchor) scan.draft.recent) (c : Char) :
    Draft.Balanced prologue (some anchor) (scan.extend c).recent := by
  unfold extend
  split
  · exact balanced.expressionChar c
  · exact balanced
  · next script => exact absurd (mode.symm.trans script) (by decide)
  · exact balanced.textChar c
  · exact balanced

theorem balanced_of_opened (mode : scan.lexing.mode ≠ .tag)
    (balanced : Draft.Balanced prologue scan.lexing.opened? scan.draft.recent) : scan.Balanced := by
  cases found : scan.lexing.mode with
  | script =>
    rw [Lexing.opened?_of_script found] at balanced
    have complete : Draft.Complete scan.draft.pieces := balanced.shaped
    refine ⟨mode, iff_of_true found complete, iff_of_false ?_ complete.not_unfinished⟩
    rw [found]
    decide
  | markup =>
    rw [Lexing.opened?_of_markup found] at balanced
    have unfinished : Draft.Unfinished scan.lexing.anchor scan.draft.pieces := balanced.shaped
    refine ⟨mode, iff_of_false ?_ fun complete => complete.not_unfinished unfinished,
      iff_of_true found unfinished⟩
    rw [found]
    decide
  | tag => exact absurd found mode

end Scan

theorem Turn.balanced {scan next : Scan} {before rest : List Char} {c : Char} {prologue : String}
    (turn : Turn scan before c rest next)
    (balanced : Draft.Balanced prologue scan.lexing.opened? scan.draft.recent) :
    Draft.Balanced prologue next.lexing.opened? next.draft.recent := by
  cases turn with
  | statement _ _ mode =>
    rw [Lexing.opened?_of_script mode] at balanced ⊢
    exact balanced.codeChar c
  | opening _ mode =>
    rw [Lexing.opened?_of_script mode] at balanced
    exact Draft.Balanced.textChar '<' (.opens balanced)
  | literal _ _ mode =>
    rw [Lexing.opened?_of_markup mode] at balanced ⊢
    exact balanced.textChar c
  | lead => exact balanced
  | carry => exact balanced
  | write call _ _ mode =>
    rw [Lexing.opened?_of_markup mode] at balanced
    rw [Lexing.opened?_of_markup (by exact mode)]
    exact balanced.writeCall call
  | sigil capture _ _ mode =>
    rw [Lexing.opened?_of_markup mode] at balanced
    rw [Lexing.opened?_of_markup (by exact mode)]
    cases capture with
    | expression => exact .inner rfl balanced
    | bound _ => exact balanced
  | withheld => exact balanced
  | brace => exact balanced
  | captured _ _ _ mode =>
    rw [Lexing.opened?_of_markup mode] at balanced
    rw [Lexing.opened?_of_markup (by exact mode)]
    exact Scan.balanced_extend mode balanced c
  | endExpression => exact balanced
  | endBound _ _ mode =>
    rw [Lexing.opened?_of_markup mode] at balanced
    rw [Lexing.opened?_of_markup (by exact mode)]
    exact .inner rfl balanced

theorem Phase.balanced_endLine {scan : Scan} {before : List Char} {prologue : String}
    (phase : Phase scan.lexing before [])
    (balanced : Draft.Balanced prologue scan.lexing.opened? scan.draft.recent) :
    Draft.Balanced prologue scan.endLine.lexing.opened? scan.endLine.draft.recent := by
  cases phase with
  | script mode idle =>
    rw [Scan.endLine_script mode idle]
    rw [Lexing.opened?_of_script mode] at balanced
    rw [Lexing.opened?_of_script (by exact mode)]
    exact balanced.codeChar '\n'
  | markup mode idle =>
    rw [Lexing.opened?_of_markup mode] at balanced
    cases carried : scan.lexing.continues with
    | true =>
      rw [Scan.endLine_carried mode idle carried, Lexing.opened?_of_markup (by exact mode)]
      exact .inner rfl balanced
    | false =>
      rw [Scan.endLine_closing mode idle carried]
      exact Draft.Balanced.codeChar '\n' (.closes balanced)
  | sigil _ _ _ _ _ brace => simp at brace
  | capturing capture mode active =>
    rw [Scan.endLine_capturing active]
    rw [Lexing.opened?_of_markup mode] at balanced
    rw [Lexing.opened?_of_markup (by exact mode)]
    exact Scan.balanced_extend mode balanced '\n'

theorem Reached.opened_balanced {start scan : Scan} {source prologue : String}
    {seen : List Signal} {unread : Unread} (reached : Reached start source seen unread scan)
    (phase : Phase start.lexing [] [])
    (balanced : Draft.Balanced prologue start.lexing.opened? start.draft.recent) :
    Draft.Balanced prologue scan.lexing.opened? scan.draft.recent := by
  induction reached with
  | start => exact balanced
  | lineStart _ ih => exact ih
  | visit reached ih => exact ((reached.phase phase).turn _).balanced ih
  | lineEnd reached ih => exact (reached.phase phase).balanced_endLine ih

end ScriptedMarkup
