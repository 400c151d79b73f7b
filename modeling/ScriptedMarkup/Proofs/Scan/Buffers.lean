import ScriptedMarkup.Proofs.Scan.Unfinished

/-!
# Where captured text is kept

While a capture is active the draft has a place for its text (`Draft.captured?`), which is what has
been read since its brace: an expression is the last piece, and the text of a bound capture is held.
So no signal loses a character of it (`Scan.Lossless`), and the brace that ends the capture finds all
of it (`Body.captures_kept`).
-/

namespace ScriptedMarkup

/-- The text that a draft has of an active capture. Where it is `none`, characters that are captured
are lost. -/
def Draft.captured? (draft : Draft) : Capture → Option String
  | .expression =>
    match draft.recent with
    | .expression text :: _ => some text
    | _ => none
  | .bound _ => draft.held

namespace Scan

/-- Text is held exactly while a bound capture is active. -/
def HoldsBound (scan : Scan) : Prop :=
  scan.draft.held.isSome = true ↔ ∃ binding, scan.lexing.capture = some (.bound binding)

/-- The state in which a character is passed on or not: what it asks for is done. -/
def acted (scan : Scan) (c : Char) (place : Cursor) : Scan :=
  scan.perform (.read scan.lexing c place)

/-- Nothing that is captured is lost at this signal. A character that is passed on to a capture, or
the end of a line within one, is added to its text; the helper of a bound capture that ends has its
text; and a closing brace always has an open one. -/
structure Lossless (scan : Scan) (signal : Signal) : Prop where
  visit : ∀ c place capture, signal = .visit c place →
    (scan.acted c place).lexing.passes = true →
    (scan.acted c place).lexing.capture = some capture →
    ∃ text, (scan.acted c place).draft.captured? capture = some text ∧
      (scan.step signal).draft.captured? capture = some (text.push c)
  lineEnd : ∀ place capture, signal = .lineEnd place → scan.lexing.capture = some capture →
    ∃ text, scan.draft.captured? capture = some text ∧
      (scan.step signal).draft.captured? capture = some (text.push '\n')
  ending : ∀ binding, scan.lexing.capture = some (.bound binding) →
    (scan.step signal).lexing.capture = none →
    ∃ helper : Helper, scan.draft.held = some helper.body ∧
      (scan.step signal).draft.helpers = scan.draft.helpers ++ [helper]
  closing : ∀ place capture, signal = .visit '}' place → scan.lexing.capture = some capture →
    0 < scan.lexing.depth

/-- What holds of captures between the signals `seen` and the signals `more` of a run. An active
capture was begun at a sigil: all that the draft has got since then is its text, which is what has
been read after its brace. Its depth is 0 only between the sigil and the brace. -/
structure Keeps (start : Scan) (seen more : List Signal) : Prop where
  expression : (start.run seen).lexing.capture = some .expression →
    ∃ text older, (start.run seen).draft.recent = .expression text :: older
  held : (start.run seen).HoldsBound
  idle : (start.run seen).lexing.capture = none → (start.run seen).lexing.depth = 0
  active : ∀ capture, (start.run seen).lexing.capture = some capture →
    (start.run seen).lexing.mode = .markup ∧
    ∃ before sigil place after, seen = before ++ .visit sigil place :: after ∧
      start.CapturedFrom capture before sigil place after ∧
      (start.run seen).draft = (start.run before).draft.capturing capture
        (String.ofList (Signal.spelled after.tail)) ∧
      (after ≠ [] ∧ 1 ≤ (start.run seen).lexing.depth ∨
        after = [] ∧ (start.run seen).lexing.depth = 0 ∧ (start.run seen).lexing.withheld = 1 ∧
          ∃ brace later, more = .visit '{' brace :: later)
  next : ∀ signal later, more = signal :: later → (start.run seen).Lossless signal

end Scan

namespace Draft

variable {draft : Draft} {c : Char}

theorem captured?_capturing (draft : Draft) (capture : Capture) (text : String) :
    (draft.capturing capture text).captured? capture = some text := by
  cases capture <;> rfl

theorem captured?_expressionChar :
    (draft.expressionChar c).captured? .expression =
      (draft.captured? .expression).map (·.push c) := by
  unfold expressionChar
  split
  · next text older recent => simp [captured?, recent]
  · next other =>
    have none : draft.captured? .expression = none := by
      rw [captured?]
      split
      · next text older recent => exact absurd recent (other text older)
      · rfl
    rw [none]
    rfl

theorem recent_of_captured? {text : String} (found : draft.captured? .expression = some text) :
    ∃ older, draft.recent = .expression text :: older := by
  rw [captured?] at found
  split at found
  · next older recent => exact ⟨older, Option.some.inj found ▸ recent⟩
  · exact nomatch found

end Draft

namespace Scan

variable {scan : Scan} {c : Char} {place : Cursor} {capture : Capture}

theorem captured?_extend (active : scan.lexing.capture = some capture) :
    (scan.extend c).captured? capture = (scan.draft.captured? capture).map (·.push c) := by
  cases capture with
  | expression => rw [extend_expression active, Draft.captured?_expressionChar]
  | bound binding =>
    rw [extend_bound active]
    rfl

/-! ### Text that is held -/

theorem held_extend (scan : Scan) (c : Char) :
    (scan.extend c).held.isSome = scan.draft.held.isSome := by
  unfold extend
  split <;> simp [Draft.heldChar]

theorem HoldsBound.of_same {next : Scan} (holds : scan.HoldsBound)
    (held : next.draft.held.isSome = scan.draft.held.isSome)
    (capture : next.lexing.capture = scan.lexing.capture) : next.HoldsBound := by
  rw [HoldsBound, held, capture]
  exact holds

theorem HoldsBound.held_eq_none (holds : scan.HoldsBound)
    (other : ∀ binding, scan.lexing.capture ≠ some (.bound binding)) : scan.draft.held = none := by
  rw [← Option.not_isSome_iff_eq_none]
  intro held
  obtain ⟨binding, active⟩ := holds.1 held
  exact other binding active

theorem holdsBound_of_none (held : scan.draft.held = none)
    (other : ∀ binding, scan.lexing.capture ≠ some (.bound binding)) : scan.HoldsBound := by
  rw [HoldsBound, held]
  exact ⟨nofun, fun ⟨binding, active⟩ => absurd active (other binding)⟩

theorem HoldsBound.endLine (holds : scan.HoldsBound) : scan.endLine.HoldsBound := by
  refine holds.of_same ?_ (capture_endLine scan)
  unfold Scan.endLine
  dsimp only
  split
  · split <;> simp
  · simp
  · exact held_extend scan '\n'

end Scan

theorem Turn.holdsBound {scan next : Scan} {before rest : List Char} {c : Char}
    (turn : Turn scan before c rest next) (holds : scan.HoldsBound) : next.HoldsBound := by
  cases turn with
  | statement | opening | literal | write => exact holds.of_same (by simp) rfl
  | lead | carry | withheld | brace => exact holds
  | captured => exact holds.of_same (scan.held_extend c) rfl
  | sigil capture _ _ _ idle =>
    cases capture with
    | expression =>
      have held : scan.draft.held = none := holds.held_eq_none (by simp [idle])
      exact Scan.holdsBound_of_none held nofun
    | bound binding => exact ⟨fun _ => ⟨binding, rfl⟩, fun _ => rfl⟩
  | endExpression _ _ active =>
    have held : scan.draft.held = none := holds.held_eq_none (by simp [active])
    exact Scan.holdsBound_of_none held nofun
  | endBound => exact Scan.holdsBound_of_none rfl nofun

theorem Reached.holdsBound {start scan : Scan} {source : String} {seen : List Signal}
    {unread : Unread} (begins : start.Begins) (first : start.HoldsBound)
    (reached : Reached start source seen unread scan) : scan.HoldsBound := by
  induction reached with
  | start => exact first
  | lineStart _ ih => exact ih
  | visit reached ih => exact ((reached.phase_of_begins begins).turn _).holdsBound ih
  | lineEnd _ ih => exact ih.endLine

/-! ### Nothing is lost -/

namespace Scan

variable {scan : Scan} {c : Char} {place : Cursor} {capture : Capture}

/-- A capture that begins does so before its brace. -/
theorem passes_of_begun {act : Act} (idle : scan.lexing.capture = none)
    (active : (scan.perform act).lexing.capture = some capture) :
    (scan.perform act).lexing.passes = false := by
  cases act with
  | beginCapture => rfl
  | endCapture capture => cases capture <;> exact nomatch active
  | shorthand shorthand =>
    cases shorthand <;> exact absurd (idle.symm.trans active) nofun
  | _ => exact absurd (idle.symm.trans active) nofun

/-- Within a capture a character leaves the draft and the capture as they are, or ends the capture. -/
theorem inCapture_cases (scan : Scan) (capture : Capture) (depth : Nat) (c : Char)
    (place : Cursor) :
    let act := Act.inCapture capture depth c place
    act = .endCapture capture ∨
      (scan.perform act).draft = scan.draft ∧
        (scan.perform act).lexing.capture = scan.lexing.capture := by
  intro act
  by_cases opening : c = '{'
  · rw [show act = .deepen from if_pos opening]
    exact .inr ⟨rfl, rfl⟩
  by_cases closing : c = '}'
  · by_cases shallow : depth ≤ 1
    · exact .inl (by rw [show act = _ from if_neg opening, if_pos closing, if_pos shallow])
    · rw [show act = _ from if_neg opening, if_pos closing, if_neg shallow]
      exact .inr ⟨rfl, rfl⟩
  · rw [perform_inCapture_of_ne opening closing capture depth]
    exact .inr ⟨rfl, rfl⟩

/-- A character that is passed on to a capture finds the draft as it was. -/
theorem acted_of_passes {other : Capture} (mode : scan.lexing.mode = .markup)
    (active : scan.lexing.capture = some capture)
    (passes : (scan.acted c place).lexing.passes = true)
    (still : (scan.acted c place).lexing.capture = some other) :
    other = capture ∧ (scan.acted c place).draft = scan.draft := by
  have act : scan.acted c place =
      scan.perform (Act.inCapture capture scan.lexing.depth c place) := by
    rw [acted, Act.read, mode, active]
  rw [act] at passes still ⊢
  rcases scan.inCapture_cases capture scan.lexing.depth c place with ends | ⟨draft, same⟩
  · rw [ends] at passes
    cases capture <;> exact absurd passes Bool.false_ne_true
  · exact ⟨Option.some.inj (still.symm.trans (same.trans active)), draft⟩

theorem step_of_passes (passes : (scan.acted c place).lexing.passes = true) :
    (scan.step (.visit c place)).draft = (scan.acted c place).extend c := by
  rw [show scan.step (.visit c place) = (scan.acted c place).receive c from rfl, receive,
    if_pos passes]

end Scan

theorem Turn.ending {scan next : Scan} {before rest : List Char} {c : Char} {binding : Binding}
    (turn : Turn scan before c rest next) (holds : scan.HoldsBound)
    (active : scan.lexing.capture = some (.bound binding)) (ended : next.lexing.capture = none) :
    ∃ helper : Helper, scan.draft.held = some helper.body ∧
      next.draft.helpers = scan.draft.helpers ++ [helper] := by
  cases turn with
  | endBound =>
    obtain ⟨text, held⟩ := Option.isSome_iff_exists.1 (holds.2 ⟨binding, active⟩)
    refine ⟨_, ?_, rfl⟩
    rw [held, Draft.release, held]
    rfl
  | endExpression _ _ other => exact absurd (active.symm.trans other) (by simp)
  | captured | brace => exact absurd (active.symm.trans ended) (by simp)
  | statement _ _ _ idle | opening _ _ idle | literal _ _ _ idle | lead _ _ idle | carry _ _ idle
  | write _ _ _ _ idle | sigil _ _ _ _ idle | withheld _ _ _ idle =>
    exact absurd (active.symm.trans idle) (by simp)

theorem Phase.mode_of_active {lexing : Lexing} {before rest : List Char} {capture : Capture}
    (phase : Phase lexing before rest) (active : lexing.capture = some capture) :
    lexing.mode = .markup := by
  cases phase with
  | script _ idle | markup _ idle => exact absurd (active.symm.trans idle) (by simp)
  | sigil _ mode | capturing _ mode => exact mode

theorem Phase.depth_of_idle {lexing : Lexing} {before rest : List Char}
    (phase : Phase lexing before rest) (idle : lexing.capture = none) : lexing.depth = 0 := by
  cases phase with
  | script _ _ level | markup _ _ level => exact level
  | sigil _ _ active | capturing _ _ active => exact absurd (active.symm.trans idle) (by simp)

/-- A closing brace of a capture has an open one. -/
theorem Phase.depth_of_closing {lexing : Lexing} {before rest : List Char} {capture : Capture}
    (phase : Phase lexing before ('}' :: rest)) (active : lexing.capture = some capture) :
    0 < lexing.depth := by
  cases phase with
  | script _ idle | markup _ idle => exact absurd (active.symm.trans idle) (by simp)
  | sigil _ _ _ _ _ brace => exact absurd brace (by simp)
  | capturing _ _ _ level => exact level

/-! ### Captures of a run -/

namespace Reached

variable {start scan : Scan} {source : String} {seen : List Signal} {unread : Unread}

/-- The draft is that of the sigil, with what has been read since the brace in its place. -/
theorem buffered {capture : Capture} (begins : start.Begins)
    (reached : Reached start source seen unread scan)
    (active : scan.lexing.capture = some capture) :
    ∃ before sigil place after, seen = before ++ .visit sigil place :: after ∧
      start.CapturedFrom capture before sigil place after ∧
      scan.draft = (start.run before).draft.capturing capture
        (String.ofList (Signal.spelled after.tail)) ∧
      (after ≠ [] ∧ 1 ≤ scan.lexing.depth ∨
        after = [] ∧ scan.lexing.depth = 0 ∧ scan.lexing.withheld = 1) := by
  obtain ⟨before, sigil, place, after, split, sinceSigil, captured⟩ :=
    reached.capturedFrom begins active
  refine ⟨before, sigil, place, after, split, sinceSigil, ?_⟩
  rcases captured with ⟨rfl, rfl⟩ | ⟨brace, inner, depth, rfl, captures⟩
  · exact ⟨rfl, .inr ⟨rfl, rfl, rfl⟩⟩
  · refine ⟨captures.draft, .inl ⟨List.cons_ne_nil _ _, ?_⟩⟩
    rw [captures.level]
    exact Nat.le_add_left 1 depth

theorem captured {capture : Capture} (begins : start.Begins)
    (reached : Reached start source seen unread scan)
    (active : scan.lexing.capture = some capture) :
    ∃ text, scan.draft.captured? capture = some text := by
  obtain ⟨_, _, _, _, _, _, draft, _⟩ := reached.buffered begins active
  exact ⟨_, draft ▸ Draft.captured?_capturing _ capture _⟩

theorem lossless {later : List Signal} {signal : Signal} (begins : start.Begins)
    (first : start.HoldsBound) (reached : Reached start source seen unread scan)
    (next : unread.signals = signal :: later) : scan.Lossless signal := by
  have phase := reached.phase_of_begins begins
  have holds := reached.holdsBound begins first
  refine ⟨?_, ?_, ?_, ?_⟩
  · rintro c place capture rfl passes still
    cases active : scan.lexing.capture with
    | none => exact absurd (passes.symm.trans (Scan.passes_of_begun active still)) (by simp)
    | some other =>
      obtain ⟨rfl, same⟩ := Scan.acted_of_passes (phase.mode_of_active active) active passes still
      obtain ⟨text, found⟩ := reached.captured begins active
      refine ⟨text, same ▸ found, ?_⟩
      rw [Scan.step_of_passes passes, Scan.captured?_extend still, same, found]
      rfl
  · rintro place capture rfl active
    obtain ⟨text, found⟩ := reached.captured begins active
    refine ⟨text, found, ?_⟩
    rw [Scan.step, Scan.endLine_capturing active, Scan.captured?_extend active, found]
    rfl
  · intro binding active ended
    cases signal with
    | lineStart place => exact absurd (active.symm.trans ended) (by simp)
    | visit c place =>
      obtain ⟨line, before, rest, texts, rfl, rfl⟩ := Unread.eq_within_of_visit next
      exact (phase.turn line).ending holds active ended
    | lineEnd place =>
      rw [Scan.step, Scan.capture_endLine] at ended
      exact absurd (active.symm.trans ended) (by simp)
  · rintro place capture rfl active
    obtain ⟨line, before, rest, texts, rfl, rfl⟩ := Unread.eq_within_of_visit next
    exact phase.depth_of_closing active

end Reached

theorem Unread.visit_of_head? {unread : Unread} {c : Char} (next : unread.rest.head? = some c) :
    ∃ place later, unread.signals = .visit c place :: later := by
  cases unread with
  | lines => exact nomatch next
  | within line before rest more =>
    obtain ⟨rest, rfl⟩ := List.head?_eq_some_iff.1 next
    exact ⟨_, _, signals_within_cons line before c rest more⟩

/-- At every point of a run an active capture has a place for its text, with all that has been read
since its brace. No later signal loses a character of it, and its last brace finds it there. -/
theorem Body.captures_kept {names : NameSupply} {source : String} {seen more : List Signal}
    (split : Signal.ofSource source = seen ++ more) : (start names).Keeps seen more := by
  have begins := begins_start names
  have holds : (start names).HoldsBound := Scan.holdsBound_of_none rfl nofun
  obtain ⟨unread, reached, rfl⟩ := reached_of_ofSource_eq (start names) split
  have phase := reached.phase_of_begins begins
  refine ⟨fun active => ?_, reached.holdsBound begins holds, phase.depth_of_idle,
    fun capture active => ⟨phase.mode_of_active active, ?_⟩,
    fun signal later next => reached.lossless begins holds next⟩
  · obtain ⟨text, found⟩ := reached.captured begins active
    exact ⟨text, Draft.recent_of_captured? found⟩
  · obtain ⟨before, sigil, place, after, same, sinceSigil, draft, inside | ⟨rfl, level, withheld⟩⟩ :=
      reached.buffered begins active
    · exact ⟨before, sigil, place, after, same, sinceSigil, draft, .inl inside⟩
    · refine ⟨before, sigil, place, [], same, sinceSigil, draft, .inr ⟨rfl, level, withheld, ?_⟩⟩
      cases phase with
      | script _ idle | markup _ idle => exact absurd (active.symm.trans idle) (by simp)
      | sigil _ _ _ _ _ brace => exact Unread.visit_of_head? brace
      | capturing _ _ _ deep => exact absurd (level ▸ deep) (Nat.lt_irrefl 0)

theorem Body.captures_kept_callback :
    let source := "<p #\x7ba\x7b\n\x7d\x7d>"
    let seen := (Signal.ofSource source).take 11
    let more := (Signal.ofSource source).drop 11
    let scan := (start {}).run seen
    Signal.ofSource source = seen ++ more ∧ scan.lexing.capture = some (.bound .callback) ∧
      scan.lexing.depth = 1 ∧ scan.draft.held = some "a\x7b\n\x7d" ∧
      (start {}).Keeps seen more := by
  intro source seen more scan
  have split : Signal.ofSource source = seen ++ more := (List.take_append_drop 11 _).symm
  exact ⟨split, by decide +kernel, by decide +kernel, by decide +kernel, captures_kept split⟩

end ScriptedMarkup
