import ScriptedMarkup.Proofs.Scan.Capturing
import ScriptedMarkup.Proofs.Scan.Effect

/-!
# Where a capture comes from

A run that is within a capture has come to it at a sigil, and has captured all that it has read
since then (`Reached.capturedFrom`).
-/

namespace ScriptedMarkup

/-- The characters that signals stand for. Every line ends with a line feed. -/
def Signal.spelled : List Signal → List Char
  | [] => []
  | .lineStart _ :: more => spelled more
  | .visit c _ :: more => c :: spelled more
  | .lineEnd _ :: more => '\n' :: spelled more

theorem Signal.spelled_append (first second : List Signal) :
    spelled (first ++ second) = spelled first ++ spelled second := by
  induction first with
  | nil => rfl
  | cons signal first ih => cases signal <;> simp [spelled, ih]

theorem Signal.spelled_visit_append (taken : List Signal) (c : Char) (place : Cursor)
    (left : List Char) : spelled (taken ++ [.visit c place]) ++ left = spelled taken ++ c :: left := by
  rw [spelled_append, List.append_assoc]
  rfl

/-- The capture that is active after these signals was started by this sigil: it has been active
since then, and was not before. -/
structure Scan.CapturedFrom (start : Scan) (capture : Capture) (before : List Signal) (sigil : Char)
    (place : Cursor) (after : List Signal) : Prop where
  starts : Capture.ofSigil? sigil = some capture
  mode : (start.run before).lexing.mode = .markup
  idle : (start.run before).lexing.capture = none
  active : ∀ taken, taken <+: after →
    (start.run (before ++ .visit sigil place :: taken)).lexing.capture = some capture

/-- What has been captured: nothing before the brace, and what has been read since after it. -/
def Scan.Captured (scan origin : Scan) (capture : Capture) (after : List Signal) : Prop :=
  after = [] ∧
      scan = { origin with
        lexing := { origin.lexing with capture := some capture, depth := 0, withheld := 1 }
        draft := origin.draft.capturing capture "" } ∨
    ∃ brace inner depth, after = .visit '{' brace :: inner ∧
      scan.Captures origin capture depth (Signal.spelled inner)

namespace Scan

theorem Captures.idle_of_close {scan origin : Scan} {capture : Capture} {text : List Char}
    (captures : scan.Captures origin capture 0 text) (place : Cursor) :
    (scan.step (.visit '}' place)).lexing.capture = none := by
  have shallow : scan.lexing.depth ≤ 1 := Nat.le_of_eq captures.level
  cases capture with
  | expression => rw [step_endExpression captures.mode captures.active captures.passes shallow]
  | bound binding => rw [step_endBound captures.mode captures.active captures.passes shallow]

theorem CapturedFrom.concat {start : Scan} {capture : Capture} {before after : List Signal}
    {sigil : Char} {place : Cursor} {signal : Signal}
    (captured : start.CapturedFrom capture before sigil place after)
    (active : (start.run (before ++ .visit sigil place :: (after ++ [signal]))).lexing.capture =
      some capture) : start.CapturedFrom capture before sigil place (after ++ [signal]) := by
  refine { captured with active := fun taken part => ?_ }
  rcases List.prefix_concat_iff.1 part with rfl | part
  · exact active
  · exact captured.active taken part

theorem Captured.captures {scan origin : Scan} {capture : Capture} {after : List Signal}
    {before : List Char} (captured : scan.Captured origin capture after)
    (phase : Phase scan.lexing before []) :
    ∃ brace inner depth, after = .visit '{' brace :: inner ∧
      scan.Captures origin capture depth (Signal.spelled inner) := by
  rcases captured with ⟨-, rfl⟩ | captured
  · cases phase with
    | script _ idle => exact absurd idle (by simp)
    | markup _ idle => exact absurd idle (by simp)
    | sigil _ _ _ _ _ brace => exact absurd brace (by simp)
    | capturing _ _ _ level => exact absurd level (Nat.lt_irrefl 0)
  · exact captured

theorem Captured.visit {scan origin : Scan} {capture : Capture} {after : List Signal} {line : Nat}
    {left rest : List Char} {c : Char} (captured : scan.Captured origin capture after)
    (phase : Phase scan.lexing left (c :: rest))
    (active : (scan.step (.visit c ⟨line, left, c :: rest⟩)).lexing.capture ≠ none) :
    ∃ brace inner depth, after ++ [.visit c ⟨line, left, c :: rest⟩] = .visit '{' brace :: inner ∧
      (scan.step (.visit c ⟨line, left, c :: rest⟩)).Captures origin capture depth
        (Signal.spelled inner) := by
  rcases captured with ⟨rfl, rfl⟩ | ⟨brace, inner, depth, rfl, captures⟩
  · cases phase with
    | script _ idle => exact absurd idle (by simp)
    | markup _ idle => exact absurd idle (by simp)
    | capturing _ _ _ level => exact absurd level (Nat.lt_irrefl 0)
    | sigil _ mode _ _ _ brace =>
      obtain rfl := Option.some.inj brace
      refine ⟨_, [], 0, rfl, ?_⟩
      rw [step_brace mode rfl rfl]
      exact ⟨mode, rfl, rfl, rfl, rfl, rfl, rfl⟩
  · have other : ¬(c = '}' ∧ depth = 0) := by
      rintro ⟨rfl, rfl⟩
      exact active (captures.idle_of_close _)
    refine ⟨brace, inner ++ [_], braceDepth depth c, rfl, ?_⟩
    rw [Signal.spelled_append]
    exact captures.visit other

end Scan

/-- A run that is within a capture has read it from its sigil on. -/
theorem Reached.capturedFrom {start scan : Scan} {source : String} {seen : List Signal}
    {unread : Unread} {capture : Capture} (begins : start.Begins)
    (reached : Reached start source seen unread scan)
    (active : scan.lexing.capture = some capture) :
    ∃ before sigil place after, seen = before ++ .visit sigil place :: after ∧
      start.CapturedFrom capture before sigil place after ∧
      scan.Captured (start.run before) capture after := by
  induction reached generalizing capture with
  | start =>
    rw [begins.lexing] at active
    exact absurd active (by simp)
  | @lineStart seen scan line text more reached ih =>
    obtain ⟨before, sigil, place, after, rfl, from', captured⟩ := ih active
    obtain ⟨brace, inner, depth, rfl, captures⟩ :=
      captured.captures (reached.phase_of_begins begins)
    have run := reached.lineStart.eq_run
    rw [List.append_assoc, List.cons_append] at run
    refine ⟨before, sigil, place, _, by simp, from'.concat (run ▸ active), .inr ?_⟩
    refine ⟨brace, inner ++ [_], depth, rfl, ?_⟩
    rw [Signal.spelled_append]
    simpa [Signal.spelled] using captures.startLine
  | @visit seen scan line left c rest more reached ih =>
    have run := reached.visit.eq_run
    have phase : Phase scan.lexing left (c :: rest) := reached.phase_of_begins begins
    cases earlier : scan.lexing.capture with
    | none =>
      have turn := phase.turn line
      generalize scan.step (.visit c ⟨line, left, c :: rest⟩) = next at turn active run
      cases turn with
      | sigil other c rest mode _ _ starts =>
        obtain rfl := Option.some.inj active
        rw [reached.eq_run] at mode earlier
        refine ⟨seen, c, _, [], rfl, ⟨starts, mode, earlier, ?_⟩, .inl ⟨rfl, ?_⟩⟩
        · intro taken part
          rw [List.prefix_nil.1 part, ← run]
        · rw [← reached.eq_run]
      | _ => simp_all
    | some other =>
      have goesOn : (scan.step (.visit c ⟨line, left, c :: rest⟩)).lexing.capture ≠ none := by
        simp [active]
      obtain ⟨before, sigil, place, after, rfl, from', captured⟩ := ih earlier
      obtain ⟨brace, inner, depth, split, captures⟩ := captured.visit phase goesOn
      obtain rfl := Option.some.inj (captures.active.symm.trans active)
      rw [List.append_assoc, List.cons_append] at run
      exact ⟨before, sigil, place, _, by simp, from'.concat (run ▸ active),
        .inr ⟨brace, inner, depth, split, captures⟩⟩
  | @lineEnd seen scan line before more reached ih =>
    rw [Scan.capture_endLine] at active
    obtain ⟨before, sigil, place, after, rfl, from', captured⟩ := ih active
    obtain ⟨brace, inner, depth, rfl, captures⟩ :=
      captured.captures (reached.phase_of_begins begins)
    have run := reached.lineEnd.eq_run
    rw [List.append_assoc, List.cons_append] at run
    refine ⟨before, sigil, place, _, by simp, from'.concat (run ▸ captures.endLine.active), .inr ?_⟩
    refine ⟨brace, inner ++ [_], depth, rfl, ?_⟩
    rw [Signal.spelled_append]
    exact captures.endLine

end ScriptedMarkup
