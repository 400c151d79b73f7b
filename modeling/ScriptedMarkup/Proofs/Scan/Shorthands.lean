import Mathlib.Logic.ExistsUnique
import ScriptedMarkup.Proofs.Scan.Spelling
import ScriptedMarkup.Proofs.Scan.Unfinished

/-!
# What becomes of an `@`

Outside captures an `@` of markup is the second one of a pair, or it adds a call, or it is kept as
text with a warning, and within a capture it is captured (`Body.fate_of_at`). A dash before it is the
last character of text, or of the name of the call that was written last (`Body.dash_of_pop`).
-/

namespace ScriptedMarkup

/-! ### Calls of a draft -/

def Piece.call? : Piece → Option AttributeCall
  | .call written => some written
  | _ => none

namespace Draft

/-- The attribute calls of a draft, in order. -/
def calls (draft : Draft) : List AttributeCall := draft.pieces.filterMap Piece.call?

theorem calls_push (draft : Draft) (piece : Piece) :
    (draft.push piece).calls = draft.calls ++ piece.call?.toList := by
  rw [calls, pieces_push, List.filterMap_append]
  cases piece <;> rfl

theorem calls_of_text {draft : Draft} {text : String} {older : List Piece}
    (recent : draft.recent = .text text :: older) :
    draft.calls = older.reverse.filterMap Piece.call? := by
  simp [calls, pieces, recent, Piece.call?]

theorem calls_textChar (draft : Draft) (c : Char) : (draft.textChar c).calls = draft.calls := by
  unfold textChar
  split
  · next before older same => rw [calls_of_text rfl, calls_of_text same]
  · next older same => exact calls_of_text rfl

theorem calls_of_trimText? {draft kept : Draft} {c : Char} (trimmed : draft.trimText? c = some kept) :
    kept.calls = draft.calls := by
  obtain ⟨content, older, recent, -, -, ⟨-, rest⟩ | rest⟩ := of_trimText? _ _ trimmed
  · rw [calls_of_text recent, calls, pieces, rest]
  · rw [calls_of_text recent, calls_of_text rest]

theorem calls_writeCall (draft : Draft) (call : AttributeCall) :
    (draft.writeCall call).calls = draft.calls ++ [call] := by
  cases call with
  | pop name =>
    have kept : ((draft.trimText? '-').getD draft).calls = draft.calls := by
      cases trimmed : draft.trimText? '-' with
      | none => rfl
      | some kept => exact calls_of_trimText? trimmed
    exact (calls_push _ _).trans (congrArg (· ++ [AttributeCall.pop name]) kept)
  | html name | all => exact calls_push _ _

end Draft

/-! ### Acts about an `@` -/

theorem Act.read_at {lexing : Lexing} (mode : lexing.mode = .markup) (place : Cursor) :
    read lexing '@' place = .shorthand (Shorthand.read lexing.capture.isSome place) := by
  cases active : lexing.capture <;> simp [read, mode, active, inMarkup, inCapture]

theorem Act.write_of_read {lexing : Lexing} {place : Cursor} {call : AttributeCall} {width : Nat}
    (act : read lexing '@' place = .shorthand (.write call width)) :
    lexing.mode = .markup ∧ lexing.capture = none ∧ Shorthand.read false place = .write call width := by
  cases mode : lexing.mode with
  | script => simp [read, mode, inScript] at act
  | tag => simp [read, mode, inTag] at act
  | markup =>
    rw [read_at mode, shorthand.injEq] at act
    cases active : lexing.capture with
    | none =>
      rw [active] at act
      exact ⟨rfl, rfl, act⟩
    | some capture =>
      rw [active] at act
      exact absurd act (Shorthand.read_capturing place call width)

theorem Shorthand.read_ne_captured (place : Cursor) : read false place ≠ captured := by
  unfold read
  split
  · simp
  split
  · simp
  rw [if_neg (by simp)]
  split
  · simp
  split <;> simp

section Places

variable {lexing : Lexing} {before rest : List Char}

/-- An `@` that is withheld comes right after another. -/
theorem Phase.withheld_at (phase : Phase lexing before ('@' :: rest)) (idle : lexing.capture = none) :
    lexing.withheld = 0 ∨ lexing.withheld = 1 ∧ before.head? = some '@' := by
  cases phase with
  | script _ _ _ passes => exact .inl passes
  | markup _ _ _ skipped left split withheld spent =>
    cases skipped with
    | nil => exact .inl withheld
    | cons first skipped =>
      rw [List.cons_append] at split
      obtain ⟨rfl, -⟩ := List.cons.inj split
      rcases spent with named | ⟨pair, behind⟩
      · exact absurd (named '@' List.mem_cons_self) (by decide)
      · rw [pair] at withheld
        exact .inr ⟨withheld, behind⟩
  | sigil _ _ active => exact absurd (idle.symm.trans active) (by simp)
  | capturing _ _ _ _ passes => exact .inl passes

end Places

/-- An `@` that is withheld is the second one of a pair that is written already. -/
theorem Reached.pair_of_withheld {start scan : Scan} {source : String} {seen : List Signal} {line : Nat}
    {before rest : List Char} {more : List (List Char)} (begins : start.Begins)
    (reached : Reached start source seen (.within line before ('@' :: rest) more) scan)
    (idle : scan.lexing.capture = none) (withheld : scan.lexing.withheld ≠ 0) :
    ∃ earlier first, seen = earlier ++ [.visit '@' first] ∧
      Act.read (start.run earlier).lexing '@' first = .shorthand (.write .all 2) := by
  have phase : Phase scan.lexing before ('@' :: rest) := reached.phase_of_begins begins
  obtain ⟨one, behind⟩ := (phase.withheld_at idle).resolve_left withheld
  cases reached with
  | lineStart => exact absurd behind (by simp)
  | @visit seen earlier _ before c _ _ reached =>
    obtain rfl := Option.some.inj behind
    have phase : Phase earlier.lexing before ('@' :: '@' :: rest) := reached.phase_of_begins begins
    have turn := phase.turn line
    refine ⟨seen, _, rfl, ?_⟩
    rw [← reached.eq_run]
    generalize earlier.step (.visit '@' ⟨line, before, '@' :: '@' :: rest⟩) = next at turn idle one
    generalize tail : '@' :: rest = after at turn
    -- Only a call has characters withheld, and the `@` among them is no part of a name.
    cases turn with
    | write call skipped left _ _ _ written read =>
      obtain ⟨c, rfl⟩ := List.length_eq_one_iff.1 one
      obtain rfl := (List.cons.inj tail).1
      cases written with
      | all => exact read line
      | html _ named | pop _ named => exact absurd (named '@' List.mem_cons_self) (by decide)
    | withheld _ _ _ active left counted =>
      have same : left = 1 := one
      rcases phase.withheld_at active with passes | ⟨once, -⟩ <;> omega
    | sigil _ _ _ _ _ _ starts => exact absurd starts (by simp [Capture.ofSigil?])
    | statement _ _ _ _ passes | literal _ _ _ _ passes =>
      exact absurd (passes.symm.trans one) Nat.zero_ne_one
    | captured _ _ _ _ active => exact absurd (active.symm.trans idle) (by simp)

/-! ### Outside captures -/

/-- What becomes of an `@` outside captures. -/
inductive Fate where
  | spent
  | written
  | kept
  deriving DecidableEq, Repr

namespace Scan

variable {start scan : Scan} {line : Nat} {before rest : List Char}

/-- Whether an `@` after these signals meets this fate. The second one of a pair does nothing. Any other
one adds a call, or is kept as a character of the literal with a warning. -/
def Meets (start : Scan) (seen : List Signal) (place : Cursor) (fate : Fate) : Prop :=
  let scan := start.run seen
  let next := scan.step (.visit '@' place)
  let notice := scan.notice? (.visit '@' place)
  match fate with
  | .spent =>
    (∃ earlier first, seen = earlier ++ [.visit '@' first] ∧
      Act.read (start.run earlier).lexing '@' first = .shorthand (.write .all 2)) ∧
    next = { scan with lexing := { scan.lexing with withheld := 0 } } ∧ notice = none
  | .written =>
    ∃ call withheld,
      next = { scan with
        lexing := { scan.lexing with withheld }
        draft := scan.draft.writeCall call } ∧
      next.draft.calls = scan.draft.calls ++ [call] ∧ notice = none
  | .kept =>
    next = { scan with draft := scan.draft.textChar '@' } ∧ next.draft.calls = scan.draft.calls ∧
      notice.map Notice.level = some .warn

section Meets

variable {seen : List Signal} {place : Cursor} {fate other : Fate}

theorem Meets.calls_iff (meets : start.Meets seen place fate) :
    ((start.run seen).step (.visit '@' place)).draft.calls = (start.run seen).draft.calls ↔
      fate ≠ .written := by
  cases fate with
  | spent =>
    obtain ⟨-, next, -⟩ := meets
    rw [next]
    exact iff_of_true rfl (by decide)
  | written =>
    obtain ⟨call, withheld, -, calls, -⟩ := meets
    rw [calls]
    simp
  | kept =>
    obtain ⟨-, calls, -⟩ := meets
    exact iff_of_true calls (by decide)

theorem Meets.notice_iff (meets : start.Meets seen place fate) :
    (start.run seen).notice? (.visit '@' place) = none ↔ fate ≠ .kept := by
  cases fate with
  | spent => exact iff_of_true meets.2.2 (by decide)
  | written =>
    obtain ⟨call, withheld, -, -, notice⟩ := meets
    exact iff_of_true notice (by decide)
  | kept =>
    obtain ⟨-, -, notice⟩ := meets
    refine iff_of_false ?_ (by decide)
    intro silent
    rw [silent] at notice
    exact absurd notice (by decide)

/-- No two things become of an `@`. -/
theorem Meets.eq (meets : start.Meets seen place fate) (also : start.Meets seen place other) :
    fate = other := by
  have written : fate ≠ .written ↔ other ≠ .written := meets.calls_iff.symm.trans also.calls_iff
  have kept : fate ≠ .kept ↔ other ≠ .kept := meets.notice_iff.symm.trans also.notice_iff
  cases fate <;> cases other <;> simp at written kept <;> rfl

end Meets

theorem notice?_at (mode : scan.lexing.mode = .markup) (place : Cursor) :
    scan.notice? (.visit '@' place) =
      match Shorthand.read scan.lexing.capture.isSome place with
      | .repeated => if scan.lexing.passes then some (.repeatedShorthand place.line) else none
      | .leading => some (.leadingShorthand place.line)
      | .nameless => some (.namelessShorthand place.line)
      | _ => none := by
  unfold notice?
  dsimp only
  rw [Act.read_at mode]
  cases Shorthand.read scan.lexing.capture.isSome place <;> rfl

/-- An `@` that is not part of anything that is written already is written as a call, or kept. -/
theorem meets_of_passes {seen : List Signal} (mode : (start.run seen).lexing.mode = .markup)
    (idle : (start.run seen).lexing.capture = none) (passes : (start.run seen).lexing.withheld = 0) :
    ∃ fate, start.Meets seen ⟨line, before, '@' :: rest⟩ fate := by
  have notice := notice?_at mode ⟨line, before, '@' :: rest⟩
  rw [idle, Option.isSome_none] at notice
  have plain (silent : (start.run seen).perform
        (.shorthand (Shorthand.read false ⟨line, before, '@' :: rest⟩)) = start.run seen)
      (warns : ((start.run seen).notice? (.visit '@' ⟨line, before, '@' :: rest⟩)).map Notice.level =
        some .warn) : start.Meets seen ⟨line, before, '@' :: rest⟩ .kept := by
    have next : (start.run seen).step (.visit '@' ⟨line, before, '@' :: rest⟩) =
        { start.run seen with draft := (start.run seen).draft.textChar '@' } :=
      step_literal mode idle passes silent
    refine ⟨next, ?_, warns⟩
    rw [next]
    exact Draft.calls_textChar _ '@'
  cases read : Shorthand.read false ⟨line, before, '@' :: rest⟩ with
  | write call width =>
    obtain ⟨skipped, left, -, rfl, -⟩ := written_of_read read
    have next := step_write mode idle read
    refine ⟨.written, call, skipped.length, next, ?_, by rw [notice, read]⟩
    rw [next]
    exact Draft.calls_writeCall _ call
  | captured => exact absurd read (Shorthand.read_ne_captured _)
  | repeated =>
    refine ⟨.kept, plain (by rw [read]; rfl) ?_⟩
    rw [notice, read]
    simp only [Lexing.passes, passes]
    rfl
  | leading => exact ⟨.kept, plain (by rw [read]; rfl) (by rw [notice, read]; rfl)⟩
  | nameless => exact ⟨.kept, plain (by rw [read]; rfl) (by rw [notice, read]; rfl)⟩

/-- The second `@` of a pair does nothing. -/
theorem meets_of_withheld {seen : List Signal} (mode : (start.run seen).lexing.mode = .markup)
    (idle : (start.run seen).lexing.capture = none) (one : (start.run seen).lexing.withheld = 1)
    (behind : before.head? = some '@')
    (pair : ∃ earlier first, seen = earlier ++ [.visit '@' first] ∧
      Act.read (start.run earlier).lexing '@' first = .shorthand (.write .all 2)) :
    start.Meets seen ⟨line, before, '@' :: rest⟩ .spent := by
  have repeated : (Cursor.mk line before ('@' :: rest)).behind ['@'] = true :=
    behind_singleton_iff.2 behind
  refine ⟨pair, ?_, ?_⟩
  · exact step_withheld mode idle one (perform_inMarkup_of_repeated repeated)
  · rw [notice?_at mode, Shorthand.read, if_pos repeated]
    simp [Lexing.passes, one]

/-! ### Within captures -/

/-- An `@` that is captured is text like any other. There is a warning about it just when it follows
another `@` or a `#{`. -/
theorem step_at_captured {capture : Capture} {origin : Draft} {text : String}
    (mode : scan.lexing.mode = .markup) (active : scan.lexing.capture = some capture)
    (passes : scan.lexing.withheld = 0) (draft : scan.draft = origin.capturing capture text)
    (place : Cursor) :
    scan.step (.visit '@' place) = { scan with draft := origin.capturing capture (text.push '@') } ∧
      (scan.notice? (.visit '@' place)).map Notice.level =
        if place.behind ['@'] ∨ place.behind ['#', '{'] then some .warn else none := by
  constructor
  · rw [step_captured mode active passes (by decide) (by decide), extend_capturing active draft]
  · have free : scan.lexing.passes = true := by simp [Lexing.passes, passes]
    rw [notice?_at mode, active, Option.isSome_some, Shorthand.read, if_pos free]
    by_cases repeated : place.behind ['@'] = true
    · rw [if_pos repeated, if_pos (.inl repeated)]
      rfl
    by_cases leading : place.behind ['#', '{'] = true
    · rw [if_neg repeated, if_pos leading, if_pos (.inr leading)]
      rfl
    · rw [if_neg repeated, if_neg leading, if_pos rfl, if_neg (by simp [repeated, leading])]
      rfl

end Scan

/-- Every `@` of markup is accounted for. Outside captures exactly one of three things becomes of it.
Within a capture it is captured, and nothing else. -/
theorem Body.fate_of_at {names : NameSupply} {source : String} {seen more : List Signal}
    {place : Cursor} (split : Signal.ofSource source = seen ++ .visit '@' place :: more)
    (mode : ((start names).run seen).lexing.mode = .markup) :
    let scan := (start names).run seen
    (scan.lexing.capture = none → ∃! fate, (start names).Meets seen place fate) ∧
      ∀ capture, scan.lexing.capture = some capture → ∃ (origin : Draft) (text : String),
        scan.draft = origin.capturing capture text ∧
        scan.step (.visit '@' place) =
          { scan with draft := origin.capturing capture (text.push '@') } ∧
        (scan.notice? (.visit '@' place)).map Notice.level =
          if place.behind ['@'] ∨ place.behind ['#', '{'] then some .warn else none := by
  intro scan
  have begins := begins_start names
  obtain ⟨line, before, rest, texts, rfl, reached⟩ := reached_of_visit (start names) split
  have phase : Phase scan.lexing before ('@' :: rest) := reached.phase_of_begins begins
  constructor
  · intro idle
    suffices some : ∃ fate, (start names).Meets seen ⟨line, before, '@' :: rest⟩ fate by
      obtain ⟨fate, meets⟩ := some
      exact ⟨fate, meets, fun other also => also.eq meets⟩
    rcases phase.withheld_at idle with passes | ⟨one, behind⟩
    · exact Scan.meets_of_passes mode idle passes
    · have withheld : scan.lexing.withheld ≠ 0 := by
        rw [one]
        decide
      have pair := reached.pair_of_withheld begins idle withheld
      exact ⟨.spent, Scan.meets_of_withheld mode idle one behind pair⟩
  · intro capture active
    obtain ⟨earlier, sigil, first, after, -, -, captured⟩ := reached.capturedFrom begins active
    cases phase with
    | script _ idle | markup _ idle => exact absurd (active.symm.trans idle) (by simp)
    | sigil _ _ _ _ _ brace => exact absurd (Option.some.inj brace) (by decide)
    | capturing _ _ _ level passes =>
      rcases captured with ⟨-, same⟩ | ⟨brace, inner, depth, -, captures⟩
      · have withheld := congrArg (·.lexing.withheld) same
        exact absurd (passes.symm.trans withheld) Nat.zero_ne_one
      · exact ⟨_, _, captures.draft, Scan.step_at_captured mode active passes captures.draft _⟩

/-- There is a warning about an `@` of an expression that follows another, though no `#{` is near. -/
theorem Body.warning_in_expression :
    let source := "<p>$\x7ba@@b\x7d</p>"
    let seen := (Signal.ofSource source).take 8
    let place : Cursor := ⟨1, ['@', 'a', '{', '$', '>', 'p', '<'], "@b\x7d</p>".toList⟩
    let scan := (start {}).run seen
    Signal.ofSource source = seen ++ .visit '@' place :: (Signal.ofSource source).drop 9 ∧
      scan.lexing.mode = .markup ∧ scan.lexing.capture = some .expression ∧
      place.behind ['#', '{'] = false ∧
      (scan.notice? (.visit '@' place)).map Notice.level = some .warn := by
  decide +kernel

theorem Body.fate_of_at_paired :
    let source := "<p @@@>"
    let seen := (Signal.ofSource source).take 5
    let place : Cursor := ⟨1, ['@', ' ', 'p', '<'], ['@', '@', '>']⟩
    Signal.ofSource source = seen ++ .visit '@' place :: (Signal.ofSource source).drop 6 ∧
      ((start {}).run seen).lexing.mode = .markup ∧ ((start {}).run seen).lexing.capture = none ∧
      ∃! fate, (start {}).Meets seen place fate := by
  intro source seen place
  have split : Signal.ofSource source = seen ++ .visit '@' place :: (Signal.ofSource source).drop 6 := by
    decide +kernel
  have mode : ((start {}).run seen).lexing.mode = .markup := by decide +kernel
  have idle : ((start {}).run seen).lexing.capture = none := by decide +kernel
  exact ⟨split, mode, idle, (fate_of_at split mode).1 idle⟩

/-! ### Dashes before an `@` -/

/-- Where the dash left of a place of markup comes from: it was read as text at last, or it ends the
name of the call that was written last. -/
inductive Dash (start : Scan) (seen : List Signal) (scan : Scan) (rest : List Char) : Prop where
  | text (earlier : List Signal) (first : Cursor) (split : seen = earlier ++ [.visit '-' first])
      (passes : scan.lexing.withheld = 0)
      (draft : scan.draft = (start.run earlier).draft.textChar '-')
  | name (earlier : List Signal) (first : Cursor) (taken : List Signal) (call : AttributeCall)
      (width : Nat) (older : List Piece) (split : seen = earlier ++ .visit '@' first :: taken)
      (act : Act.read (start.run earlier).lexing '@' first = .shorthand (.write call width))
      (named : call.name? =
        some (String.ofList (Signal.spelled taken ++ rest.take scan.lexing.withheld)))
      (last : (Signal.spelled taken ++ rest.take scan.lexing.withheld).getLast? = some '-')
      (recent : scan.draft.recent = .call call :: older)

theorem AttributeCall.Written.name? {before name : List Char} {call : AttributeCall}
    (written : call.Written before name) (dash : name.getLast? = some '-') :
    call.name? = some (String.ofList name) := by
  cases written with
  | all => exact absurd dash (by decide)
  | html | pop => rfl

theorem Draft.recent_writeCall (draft : Draft) (call : AttributeCall) :
    ∃ older, (draft.writeCall call).recent = .call call :: older := by
  cases call <;> exact ⟨_, rfl⟩

section Turn

variable {start scan next : Scan} {seen : List Signal} {before rest : List Char} {c : Char} {line : Nat}

/-- A character other than a dash is not the dash that is looked for. -/
theorem not_dash (passes : scan.lexing.withheld = 0) (other : c ≠ '-') :
    ((rest.take scan.lexing.withheld).reverse ++ c :: before).head? ≠ some '-' := by
  rw [passes]
  simpa using other

theorem Turn.dash (turn : Turn scan before c rest next) (reached : scan = start.run seen)
    (earlier : scan.inMarkup = true →
      (((c :: rest).take scan.lexing.withheld).reverse ++ before).head? = some '-' →
      Dash start seen scan (c :: rest))
    (markup : next.inMarkup = true)
    (dash : ((rest.take next.lexing.withheld).reverse ++ c :: before).head? = some '-') :
    Dash start (seen ++ [.visit c ⟨line, before, c :: rest⟩]) next rest := by
  cases turn with
  | statement _ _ mode =>
    exact absurd (mode.symm.trans (Scan.inMarkup_iff.1 markup).1) (by decide)
  | opening _ _ _ passes => exact absurd dash (not_dash passes (by decide))
  | literal _ _ _ _ passes =>
    by_cases same : c = '-'
    · subst same
      exact .text seen _ rfl passes (reached ▸ rfl)
    · exact absurd dash (not_dash passes same)
  | lead _ _ _ passes => exact absurd dash (not_dash passes (by decide))
  | carry _ _ _ passes => exact absurd dash (not_dash passes (by decide))
  | write call skipped left _ _ _ written read =>
    -- Nothing of the name is read yet, and the dash is its last character.
    rw [List.take_left] at dash
    have last : skipped.getLast? = some '-' := getLast?_of_dash dash
    obtain ⟨older, recent⟩ := scan.draft.recent_writeCall call
    refine .name seen _ [] call _ older rfl (reached ▸ read line) ?_ ?_ recent
    · rw [Signal.spelled, List.nil_append, List.take_left]
      exact written.name? last
    · rw [Signal.spelled, List.nil_append, List.take_left]
      exact last
  | withheld _ _ mode idle left withheld =>
    -- One more character of the name is read, and the dash is the same.
    have dashed : Dash start seen scan (c :: rest) := by
      apply earlier (Scan.inMarkup_iff.2 ⟨mode, idle⟩)
      rw [withheld, List.take_succ_cons, List.reverse_cons, List.append_assoc]
      exact dash
    cases dashed with
    | text _ _ _ passes => exact absurd (passes.symm.trans withheld) (Nat.succ_ne_zero left).symm
    | name earlier first taken call width older split act named last recent =>
      rw [withheld, List.take_succ_cons, List.append_cons] at named last
      refine .name earlier first (taken ++ [.visit c ⟨line, before, c :: rest⟩]) call width older ?_
        act ?_ ?_ recent
      · rw [split, List.append_assoc, List.cons_append]
      · rw [Signal.spelled_append]
        exact named
      · rw [Signal.spelled_append]
        exact last
  | sigil => exact absurd (Scan.inMarkup_iff.1 markup).2 (by simp)
  | brace _ _ _ active =>
    exact absurd (active.symm.trans (Scan.inMarkup_iff.1 markup).2) (by simp)
  | captured _ _ _ _ active =>
    exact absurd (active.symm.trans (Scan.inMarkup_iff.1 markup).2) (by simp)
  | endExpression _ _ _ passes => exact absurd dash (not_dash passes (by decide))
  | endBound _ _ _ _ passes => exact absurd dash (not_dash passes (by decide))

end Turn

theorem Reached.dash {start scan : Scan} {source : String} {seen : List Signal} {unread : Unread}
    (begins : start.Begins) (reached : Reached start source seen unread scan)
    (markup : scan.inMarkup = true)
    (dash : ((unread.rest.take scan.lexing.withheld).reverse ++ unread.before).head? = some '-') :
    Dash start seen scan unread.rest := by
  induction reached with
  | start => exact absurd dash (by simp [Unread.rest, Unread.before])
  | @lineStart seen scan line text more reached =>
    have passes : scan.lexing.withheld = 0 := (reached.phase_of_begins begins).passes_at_end
    have still : (scan.startLine (.start line text)).lexing.withheld = 0 := passes
    rw [still] at dash
    exact absurd dash (by simp [Unread.before])
  | @visit seen scan line before c rest more reached ih =>
    have phase : Phase scan.lexing before (c :: rest) := reached.phase_of_begins begins
    exact (phase.turn line).dash reached.eq_run ih markup dash
  | lineEnd => exact absurd dash (by simp [Unread.rest, Unread.before])

/-- The dash that makes a call forget is not used twice, but where a name ends with it: the last piece is
the text that ends with this very dash, which is taken back, or else a call with a name that ends with
it, and then nothing is taken back. -/
theorem Body.dash_of_pop {names : NameSupply} {source name : String} {seen more : List Signal}
    {place : Cursor} {width : Nat} (split : Signal.ofSource source = seen ++ .visit '@' place :: more)
    (act : Act.read ((start names).run seen).lexing '@' place = .shorthand (.write (.pop name) width)) :
    let scan := (start names).run seen
    let next := scan.step (.visit '@' place)
    (∃ earlier first kept, seen = earlier ++ [.visit '-' first] ∧
      scan.draft = ((start names).run earlier).draft.textChar '-' ∧
      scan.draft.trimText? '-' = some kept ∧ next.draft = kept.push (.call (.pop name))) ∨
    (∃ earlier first taken call width older, seen = earlier ++ .visit '@' first :: taken ∧
      Act.read ((start names).run earlier).lexing '@' first = .shorthand (.write call width) ∧
      call.name? = some (String.ofList (Signal.spelled taken)) ∧
      (Signal.spelled taken).getLast? = some '-' ∧ scan.draft.recent = .call call :: older ∧
      scan.draft.trimText? '-' = none ∧ next.draft = scan.draft.push (.call (.pop name))) := by
  intro scan next
  have begins := begins_start names
  obtain ⟨line, before, rest, texts, rfl, reached⟩ := reached_of_visit (start names) split
  obtain ⟨mode, idle, read⟩ := Act.write_of_read act
  obtain ⟨skipped, left, rfl, rfl, written⟩ := written_of_read read
  have stepped : next.draft = scan.draft.writeCall (.pop name) :=
    congrArg Scan.draft (Scan.step_write mode idle read)
  have dashed : before.head? = some '-' := by
    cases written with
    | pop _ _ dashed => exact dashed
  have phase : Phase scan.lexing before ('@' :: (skipped ++ left)) := reached.phase_of_begins begins
  have passes : scan.lexing.withheld = 0 := by
    rcases phase.withheld_at idle with passes | ⟨-, behind⟩
    · exact passes
    · exact absurd (dashed.symm.trans behind) (by decide)
  have found : Dash (start names) seen scan ('@' :: (skipped ++ left)) := by
    apply reached.dash begins (Scan.inMarkup_iff.2 ⟨mode, idle⟩)
    show (List.reverse (List.take scan.lexing.withheld _) ++ before).head? = some '-'
    rw [passes]
    exact dashed
  cases found with
  | text earlier first split _ draft =>
    obtain ⟨kept, trimmed⟩ := Option.ne_none_iff_exists'.1
      (((start names).run earlier).draft.trimText?_textChar_ne_none '-')
    rw [← draft] at trimmed
    refine .inl ⟨earlier, first, kept, split, draft, trimmed, ?_⟩
    rw [stepped, Draft.writeCall, trimmed, Option.getD_some]
  | name earlier first taken call width older split act named last recent =>
    rw [passes, List.take_zero, List.append_nil] at named last
    have untrimmed : scan.draft.trimText? '-' = none := by
      rw [Draft.trimText?, recent]
    refine .inr
      ⟨earlier, first, taken, call, width, older, split, act, named, last, recent, untrimmed, ?_⟩
    rw [stepped, Draft.writeCall, untrimmed, Option.getD_none]

/-- A dash is used twice where it ends a name: it is no text that could be taken back, and the first call
keeps it. -/
theorem Body.dash_of_pop_twice :
    let source := "<p @a-@b>"
    let seen := (Signal.ofSource source).take 7
    let place : Cursor := ⟨1, ['-', 'a', '@', ' ', 'p', '<'], ['@', 'b', '>']⟩
    let scan := (start {}).run seen
    let next := scan.step (.visit '@' place)
    Signal.ofSource source = seen ++ .visit '@' place :: (Signal.ofSource source).drop 8 ∧
      Act.read scan.lexing '@' place = .shorthand (.write (.pop "b") 2) ∧
      scan.draft.pieces.getLast? = some (.call (.html "a-")) ∧ scan.draft.trimText? '-' = none ∧
      next.draft.pieces = scan.draft.pieces ++ [.call (.pop "b")] := by
  decide +kernel

theorem Body.dash_of_pop_text :
    let source := "<p -@a>"
    let seen := (Signal.ofSource source).take 5
    let place : Cursor := ⟨1, ['-', ' ', 'p', '<'], ['@', 'a', '>']⟩
    let scan := (start {}).run seen
    Signal.ofSource source = seen ++ .visit '@' place :: (Signal.ofSource source).drop 6 ∧
      Act.read scan.lexing '@' place = .shorthand (.write (.pop "a") 2) ∧
      ∃ earlier first kept, seen = earlier ++ [.visit '-' first] ∧
        scan.draft = ((start {}).run earlier).draft.textChar '-' ∧
        scan.draft.trimText? '-' = some kept ∧
        (scan.step (.visit '@' place)).draft = kept.push (.call (.pop "a")) := by
  intro source seen place scan
  have split : Signal.ofSource source = seen ++ .visit '@' place :: (Signal.ofSource source).drop 6 := by
    decide +kernel
  have act : Act.read scan.lexing '@' place = .shorthand (.write (.pop "a") 2) := by decide +kernel
  have trims : scan.draft.trimText? '-' ≠ none := by decide +kernel
  refine ⟨split, act, (dash_of_pop split act).resolve_right ?_⟩
  rintro ⟨-, -, -, -, -, -, -, -, -, -, -, untrimmed, -⟩
  exact trims untrimmed

end ScriptedMarkup
