import ScriptedMarkup.Proofs.Draft.Blocks
import ScriptedMarkup.Proofs.Scan.Phase

/-!
# Effects of a signal

A signal opens a literal, closes one, or binds a capture; all others only write between the pieces
that do. `Reached.invariant` carries what every effect preserves along a run.
-/

namespace ScriptedMarkup

/-- The start of a run: nothing is remembered, and the draft ends a line. -/
structure Scan.Begins (start : Scan) : Prop where
  lexing : start.lexing = {}
  fresh : Draft.EndsLine start.draft.recent
  settled : start.draft.settled = []
  helpers : start.draft.helpers = []

/-- The binding of the bound capture that is over in the next state. -/
def Scan.completed? (scan next : Scan) : Option Binding :=
  match scan.lexing.capture, next.lexing.capture with
  | some (.bound binding), none => some binding
  | _, _ => none

/-- What a signal of a run does to literals, references, helpers and names. -/
inductive Scan.Effect (scan next : Scan) : Prop where
  | writes (same : next.lexing.mode = scan.lexing.mode ∧ next.lexing.anchor = scan.lexing.anchor)
      (settled : next.draft.settled = scan.draft.settled)
      (helpers : next.draft.helpers = scan.draft.helpers) (names : next.names = scan.names)
      (completed : scan.completed? next = none)
  | opens (mode : scan.lexing.mode = .script) (fresh : Draft.EndsLine scan.draft.recent)
      (entered : next.lexing.mode = .markup ∧ next.lexing.anchor = scan.draft.size)
      (settled : next.draft.settled = .openLiteral :: scan.draft.recent)
      (helpers : next.draft.helpers = scan.draft.helpers) (names : next.names = scan.names)
      (completed : scan.completed? next = none)
  | closes (entered : next.lexing.mode = .script)
      (settled : next.draft.settled = .closeLiteral :: scan.draft.recent)
      (helpers : next.draft.helpers = scan.draft.helpers) (names : next.names = scan.names)
      (completed : scan.completed? next = none)
  | binds (binding : Binding) (body : String) (mode : scan.lexing.mode = .markup)
      (same : next.lexing.mode = .markup ∧ next.lexing.anchor = scan.lexing.anchor)
      (settled : next.draft.settled =
        .reference binding (NameSupply.nameOf (scan.names.issued + 1)) :: scan.draft.recent)
      (helpers : next.draft.helpers = scan.draft.helpers ++
        [⟨scan.lexing.anchor, binding, NameSupply.nameOf (scan.names.issued + 1), body⟩])
      (names : next.names = ⟨scan.names.issued + 1⟩)
      (completed : scan.completed? next = some binding)

namespace Draft

@[simp]
theorem settled_capturing (draft : Draft) (capture : Capture) (text : String) :
    (draft.capturing capture text).settled = draft.settled := by
  cases capture <;> rfl

@[simp]
theorem helpers_capturing (draft : Draft) (capture : Capture) (text : String) :
    (draft.capturing capture text).helpers = draft.helpers := by
  cases capture <;> rfl

end Draft

namespace Scan

theorem completed?_of_idle {scan next : Scan} (idle : scan.lexing.capture = none) :
    scan.completed? next = none := by
  simp [completed?, idle]

theorem completed?_of_same {scan next : Scan}
    (same : next.lexing.capture = scan.lexing.capture) : scan.completed? next = none := by
  cases active : scan.lexing.capture <;> simp [completed?, same, active]

theorem settled_extend (scan : Scan) (c : Char) :
    (scan.extend c).settled = scan.draft.settled := by
  unfold extend
  split <;> simp

theorem helpers_extend (scan : Scan) (c : Char) :
    (scan.extend c).helpers = scan.draft.helpers := by
  unfold extend
  split <;> simp

end Scan

theorem Turn.effect {scan next : Scan} {before rest : List Char} {c : Char}
    (turn : Turn scan before c rest next)
    (fresh : scan.lexing.mode = .script → before = [] → Draft.EndsLine scan.draft.recent) :
    scan.Effect next := by
  cases turn with
  | statement => exact .writes ⟨rfl, rfl⟩ (by simp) (by simp) rfl (Scan.completed?_of_same rfl)
  | opening _ mode idle _ first =>
    have settled := (Draft.settled_textChar _ '<').trans
      (Draft.settled_push_of_not scan.draft (by rfl : Piece.openLiteral.isPlain = false))
    exact .opens mode (fresh mode first) ⟨rfl, rfl⟩ settled (by simp) rfl
      (Scan.completed?_of_idle idle)
  | literal => exact .writes ⟨rfl, rfl⟩ (by simp) (by simp) rfl (Scan.completed?_of_same rfl)
  | lead => exact .writes ⟨rfl, rfl⟩ rfl rfl rfl (Scan.completed?_of_same rfl)
  | carry => exact .writes ⟨rfl, rfl⟩ rfl rfl rfl (Scan.completed?_of_same rfl)
  | write => exact .writes ⟨rfl, rfl⟩ (by simp) (by simp) rfl (Scan.completed?_of_same rfl)
  | sigil _ _ _ _ idle =>
    exact .writes ⟨rfl, rfl⟩ (by simp) (by simp) rfl (Scan.completed?_of_idle idle)
  | withheld => exact .writes ⟨rfl, rfl⟩ rfl rfl rfl (Scan.completed?_of_same rfl)
  | brace => exact .writes ⟨rfl, rfl⟩ rfl rfl rfl (Scan.completed?_of_same rfl)
  | captured =>
    exact .writes ⟨rfl, rfl⟩ (scan.settled_extend c) (scan.helpers_extend c) rfl
      (Scan.completed?_of_same rfl)
  | endExpression _ _ active =>
    exact .writes ⟨rfl, rfl⟩ rfl rfl rfl (by simp [Scan.completed?, active])
  | endBound binding _ mode active =>
    exact .binds binding scan.draft.release.1 mode ⟨mode, rfl⟩ rfl rfl rfl
      (by simp [Scan.completed?, active])

theorem Phase.effect_endLine {scan : Scan} {before : List Char}
    (phase : Phase scan.lexing before []) : scan.Effect scan.endLine := by
  cases phase with
  | script mode idle =>
    rw [Scan.endLine_script mode idle]
    exact .writes ⟨rfl, rfl⟩ (by simp) (by simp) rfl (Scan.completed?_of_same rfl)
  | markup mode idle =>
    cases carried : scan.lexing.continues with
    | true =>
      rw [Scan.endLine_carried mode idle carried]
      exact .writes ⟨rfl, rfl⟩ rfl rfl rfl (Scan.completed?_of_same rfl)
    | false =>
      rw [Scan.endLine_closing mode idle carried]
      have settled := (Draft.settled_codeChar _ '\n').trans
        (Draft.settled_push_of_not scan.draft (by rfl : Piece.closeLiteral.isPlain = false))
      exact .closes rfl settled (by simp) rfl (Scan.completed?_of_idle idle)
  | sigil _ _ _ _ _ brace => simp at brace
  | capturing capture mode active =>
    rw [Scan.endLine_capturing active]
    exact .writes ⟨rfl, rfl⟩ (scan.settled_extend '\n') (scan.helpers_extend '\n') rfl
      (Scan.completed?_of_same rfl)

namespace Reached

variable {start scan : Scan} {source : String} {seen : List Signal} {unread : Unread}

theorem phase_of_begins (reached : Reached start source seen unread scan) (begins : start.Begins) :
    Phase scan.lexing unread.before unread.rest :=
  reached.phase_of_fresh begins.lexing

/-- Statements start on a line of their own. -/
theorem endsLine (reached : Reached start source seen unread scan) (begins : start.Begins)
    (script : scan.lexing.mode = .script) (first : unread.before = []) :
    Draft.EndsLine scan.draft.recent := by
  induction reached with
  | start => exact begins.fresh
  | lineStart _ ih => exact ih script rfl
  | visit => exact absurd first (List.cons_ne_nil _ _)
  | lineEnd reached =>
    cases reached.phase_of_begins begins with
    | script mode idle =>
      rw [Scan.endLine_script mode idle]
      exact Draft.endsLine_codeChar _
    | @markup mode idle =>
      rename_i scan _ _ _ _ _ _ _ _ _ _
      cases carried : scan.lexing.continues with
      | true =>
        rw [Scan.endLine_carried mode idle carried] at script
        exact absurd (mode.symm.trans script) (by decide)
      | false =>
        rw [Scan.endLine_closing mode idle carried]
        exact Draft.endsLine_codeChar _
    | sigil _ _ _ _ _ brace => simp [Unread.rest] at brace
    | capturing capture mode active =>
      rw [Scan.endLine_capturing active] at script
      exact absurd (mode.symm.trans script) (by decide)

theorem invariant (Holds : List Signal → Prop) (begins : start.Begins) (first : Holds [])
    (step : ∀ {seen : List Signal} {signal : Signal},
      (start.run seen).Effect (start.run (seen ++ [signal])) → Holds seen → Holds (seen ++ [signal]))
    (reached : Reached start source seen unread scan) : Holds seen := by
  have after {seen : List Signal} {unread : Unread} {scan : Scan} {signal : Signal}
      (reached : Reached start source seen unread scan) (effect : scan.Effect (scan.step signal)) :
      (start.run seen).Effect (start.run (seen ++ [signal])) := by
    rw [Scan.run_append, ← reached.eq_run]
    exact effect
  induction reached with
  | start => exact first
  | lineStart reached ih =>
    exact step (after reached (.writes ⟨rfl, rfl⟩ rfl rfl rfl (Scan.completed?_of_same rfl))) ih
  | visit reached ih =>
    have phase := reached.phase_of_begins begins
    exact step (after reached ((phase.turn _).effect (reached.endsLine begins))) ih
  | lineEnd reached ih =>
    exact step (after reached (reached.phase_of_begins begins).effect_endLine) ih

end Reached

/-- What holds at the start and is kept by every effect holds at every point of a run. -/
theorem Scan.Begins.invariant {start : Scan} (begins : start.Begins) (Holds : List Signal → Prop)
    (first : Holds [])
    (step : ∀ {seen : List Signal} {signal : Signal},
      (start.run seen).Effect (start.run (seen ++ [signal])) → Holds seen → Holds (seen ++ [signal]))
    {source : String} {seen more : List Signal} (split : Signal.ofSource source = seen ++ more) :
    Holds seen := by
  obtain ⟨unread, reached, -⟩ := reached_of_ofSource_eq start split
  exact reached.invariant Holds begins first step

theorem Body.begins_start (names : NameSupply) : (Body.start names).Begins :=
  ⟨rfl, ⟨"'use strict';", [], rfl⟩, rfl, rfl⟩

end ScriptedMarkup
