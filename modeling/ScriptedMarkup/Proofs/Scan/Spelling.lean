import ScriptedMarkup.Proofs.Draft.Spelling
import ScriptedMarkup.Proofs.Scan.Phase

/-!
# Spelling of a run

What a scan has produced spells what it has read. `Spells` keeps account of the characters that are
in the draft before they are read, as the rest of an attribute name is. Each character adds itself
(`Spells.visit`), but for plus signs that carry a literal on (`Spells.edge`).
-/

namespace ScriptedMarkup

def AttributeCall.name? : AttributeCall → Option String
  | html name | pop name => some name
  | all => none

theorem Capture.sigil_of_ofSigil? {c : Char} {capture : Capture}
    (sigil : Capture.ofSigil? c = some capture) : capture.sigil = c := by
  rcases ofSigil?_eq_some_iff.1 sigil with ⟨rfl, rfl⟩ | ⟨rfl, rfl⟩ | ⟨rfl, rfl⟩ <;> rfl

/-- Whether an attribute call is written whose name ends with a dash, right before another `@`: in
`@a-@b` the dash is in the first name, and yet the second call forgets. -/
def Act.isAmbiguous (act : Act) (place : Cursor) : Bool :=
  match act with
  | .shorthand (.write call width) =>
    call.name?.bind (·.toList.getLast?) == some '-' && (place.rest.drop width).head? == some '@'
  | _ => false

namespace Scan

/-- Whether a signal of a run is ambiguous. -/
def ambiguous (scan : Scan) : List Signal → Bool
  | [] => false
  | .visit c place :: more =>
    (Act.read scan.lexing c place).isAmbiguous place || (scan.step (.visit c place)).ambiguous more
  | .lineStart place :: more => (scan.startLine place).ambiguous more
  | .lineEnd _ :: more => scan.endLine.ambiguous more

theorem ambiguous_append (scan : Scan) (first second : List Signal) :
    scan.ambiguous (first ++ second) =
      (scan.ambiguous first || (scan.run first).ambiguous second) := by
  induction first generalizing scan with
  | nil => rfl
  | cons signal first ih =>
    cases signal with
    | visit c place => simp only [List.cons_append, ambiguous, run_cons, ih, Bool.or_assoc]
    | lineStart place | lineEnd place => exact ih _

/-- Whether markup is read, outside of captures. -/
def inMarkup (scan : Scan) : Bool := scan.lexing.mode = .markup && scan.lexing.capture.isNone

/-- A plus sign that carries a literal on, at the start or the end of a line. -/
def AtEdge (scan : Scan) (before rest : List Char) (c : Char) : Prop :=
  scan.inMarkup = true ∧ c = '+' ∧ (before = [] ∨ rest = [])

/-- What a scan has read, according to what it has produced. -/
inductive Reads (bodyOf : String → String) (scan : Scan) (text : List Char) : Prop where
  | idle (idle : scan.lexing.capture = none) (spelled : scan.draft.spelled bodyOf = text)
  | capturing (origin : Draft) (capture : Capture) (captured : String)
      (active : scan.lexing.capture = some capture)
      (draft : scan.draft = origin.capturing capture captured)
      (spelled : origin.spelled bodyOf ++ capture.sigil :: '{' :: captured.toList = text)

end Scan

variable {bodyOf : String → String} {scan next : Scan} {before rest text : List Char} {c : Char}

namespace Scan

theorem inMarkup_iff : scan.inMarkup = true ↔
    scan.lexing.mode = .markup ∧ scan.lexing.capture = none := by
  simp [inMarkup]

theorem Reads.of_idle (reads : scan.Reads bodyOf text) (idle : scan.lexing.capture = none) :
    scan.draft.spelled bodyOf = text := by
  cases reads with
  | idle _ spelled => exact spelled
  | capturing _ _ _ active => exact absurd (idle.symm.trans active) (by simp)

theorem Reads.of_passes (reads : scan.Reads bodyOf (text ++ rest.take scan.lexing.withheld))
    (passes : scan.lexing.withheld = 0) : scan.Reads bodyOf text := by
  rwa [passes, List.take_zero, List.append_nil] at reads

theorem Reads.of_active {capture : Capture} (reads : scan.Reads bodyOf text)
    (active : scan.lexing.capture = some capture) :
    ∃ (origin : Draft) (captured : String), scan.draft = origin.capturing capture captured ∧
      origin.spelled bodyOf ++ capture.sigil :: '{' :: captured.toList = text := by
  cases reads with
  | idle idle => exact absurd (idle.symm.trans active) (by simp)
  | capturing origin other captured found draft spelled =>
    obtain rfl := Option.some.inj (found.symm.trans active)
    exact ⟨origin, captured, draft, spelled⟩

theorem Reads.of_same (reads : scan.Reads bodyOf text)
    (capture : next.lexing.capture = scan.lexing.capture) (draft : next.draft = scan.draft) :
    next.Reads bodyOf text := by
  cases reads with
  | idle idle spelled => exact .idle (capture.trans idle) (draft ▸ spelled)
  | capturing origin other captured active found spelled =>
    exact .capturing origin other captured (capture.trans active) (draft.trans found) spelled

theorem Reads.captured {capture : Capture} (reads : scan.Reads bodyOf text)
    (active : scan.lexing.capture = some capture) (c : Char) (lexing : Lexing)
    (still : lexing.capture = some capture) :
    Reads bodyOf { scan with lexing, draft := scan.extend c } (text ++ [c]) := by
  obtain ⟨origin, captured, draft, rfl⟩ := reads.of_active active
  refine .capturing origin capture (captured.push c) still (extend_capturing active draft) ?_
  simp

end Scan

theorem Phase.reads_endLine (phase : Phase scan.lexing before []) (reads : scan.Reads bodyOf text) :
    scan.endLine.Reads bodyOf (text ++ ['\n']) := by
  cases phase with
  | script mode idle =>
    rw [Scan.endLine_script mode idle]
    exact .idle idle (by rw [Draft.spelled_codeChar, reads.of_idle idle])
  | markup mode idle =>
    cases carried : scan.lexing.continues with
    | true =>
      rw [Scan.endLine_carried mode idle carried]
      exact .idle idle (by rw [Draft.spelled_push, reads.of_idle idle, Piece.spelling])
    | false =>
      rw [Scan.endLine_closing mode idle carried]
      refine .idle idle ?_
      rw [Draft.spelled_codeChar, Draft.spelled_push, reads.of_idle idle, Piece.spelling,
        List.append_nil]
  | sigil _ _ _ _ _ brace => simp at brace
  | capturing capture mode active =>
    rw [Scan.endLine_capturing active]
    exact reads.captured active '\n' _ active

theorem Turn.reads (turn : Turn scan before c rest next)
    (reads : scan.Reads bodyOf (text ++ (c :: rest).take scan.lexing.withheld))
    (dash : scan.inMarkup = true → scan.lexing.withheld = 0 → before.head? = some '-' → c = '@' →
      ∃ (content : String) (older : List Piece),
        scan.draft.recent = .text (content.push '-') :: older)
    (agrees : ∀ helper ∈ next.draft.helpers, bodyOf helper.name = helper.body)
    (inner : ¬scan.AtEdge before rest c) :
    next.Reads bodyOf ((text ++ [c]) ++ rest.take next.lexing.withheld) := by
  cases turn with
  | statement _ _ _ idle passes =>
    have spelled := (reads.of_passes passes).of_idle idle
    rw [passes, List.take_zero, List.append_nil]
    exact .idle idle (by rw [Draft.spelled_codeChar, spelled])
  | opening _ _ idle passes =>
    have spelled := (reads.of_passes passes).of_idle idle
    rw [passes, List.take_zero, List.append_nil]
    refine .idle idle ?_
    rw [Draft.spelled_textChar, Draft.spelled_push, spelled, Piece.spelling, List.append_nil]
  | literal _ _ _ idle passes =>
    have spelled := (reads.of_passes passes).of_idle idle
    rw [passes, List.take_zero, List.append_nil]
    exact .idle idle (by rw [Draft.spelled_textChar, spelled])
  | lead _ mode idle _ first =>
    exact absurd ⟨Scan.inMarkup_iff.2 ⟨mode, idle⟩, rfl, .inl first⟩ inner
  | carry _ mode idle _ last =>
    exact absurd ⟨Scan.inMarkup_iff.2 ⟨mode, idle⟩, rfl, .inr last⟩ inner
  | write call skipped left mode idle passes written =>
    -- The draft has the whole call, of which only the `@` is read.
    have spelled := (reads.of_passes passes).of_idle idle
    refine .idle idle ?_
    rw [List.take_left, List.append_assoc, ← spelled]
    cases written with
    | all => exact Draft.spelled_push bodyOf _ _
    | html name =>
      refine (Draft.spelled_push bodyOf _ _).trans ?_
      simp [Piece.spelling, AttributeCall.spelling]
    | pop name _ dashed =>
      obtain ⟨content, older, recent⟩ := dash (Scan.inMarkup_iff.2 ⟨mode, idle⟩) passes dashed rfl
      rw [Draft.spelled_writeCall_pop bodyOf _ recent, String.toList_ofList]
      rfl
  | sigil capture _ rest _ idle passes sigil =>
    have spelled := (reads.of_passes passes).of_idle idle
    refine .capturing scan.draft capture "" rfl rfl ?_
    rw [spelled, Capture.sigil_of_ofSigil? sigil]
    simp
  | withheld _ _ mode idle left withheld =>
    have spelled := reads.of_idle idle
    rw [withheld, List.take_succ_cons, List.append_cons] at spelled
    exact .idle idle spelled
  | brace capture _ mode active withheld =>
    obtain ⟨origin, captured, draft, spelled⟩ := reads.of_active active
    rw [withheld] at spelled
    exact .capturing origin capture captured active draft (by simpa using spelled)
  | captured capture _ _ _ active passes =>
    rw [passes, List.take_zero, List.append_nil]
    exact (reads.of_passes passes).captured active c _ active
  | endExpression _ _ active passes =>
    obtain ⟨origin, captured, draft, spelled⟩ := (reads.of_passes passes).of_active active
    rw [passes, List.take_zero, List.append_nil]
    refine .idle rfl ?_
    rw [draft, Draft.capturing, Draft.spelled_push, ← spelled, List.append_assoc]
    rfl
  | endBound binding _ _ active passes =>
    obtain ⟨origin, captured, draft, spelled⟩ := (reads.of_passes passes).of_active active
    rw [passes, List.take_zero, List.append_nil]
    -- The name stands for what has been held, as the helper is among those of `bodyOf`.
    have body := agrees _ (List.mem_append_right _ List.mem_cons_self)
    refine .idle rfl ?_
    rw [Draft.spelled_push, Piece.spelling, body, draft, ← spelled, List.append_assoc]
    rfl

namespace Scan

/-- A dash that an `@` comes after is the last character of the draft. None is withheld there. -/
def Dashed (scan : Scan) (before rest : List Char) : Prop :=
  scan.inMarkup = true →
    ((rest.take scan.lexing.withheld).reverse ++ before).head? = some '-' →
    (rest.drop scan.lexing.withheld).head? = some '@' →
    scan.lexing.withheld = 0 ∧ ∃ (content : String) (older : List Piece),
      scan.draft.recent = .text (content.push '-') :: older

theorem dashed_of_ne (passes : scan.lexing.withheld = 0) (other : c ≠ '-') :
    scan.Dashed (c :: before) rest := by
  intro _ dash
  rw [passes] at dash
  exact absurd (Option.some.inj dash) other

theorem dashed_of_active {capture : Capture} (active : scan.lexing.capture = some capture) :
    scan.Dashed before rest := by
  intro markup
  rw [inMarkup_iff, active] at markup
  exact absurd markup.2 (by simp)

theorem dashed_nil (rest : List Char) (passes : scan.lexing.withheld = 0) :
    scan.Dashed [] rest := by
  intro _ dash
  rw [passes] at dash
  exact absurd dash (by simp)

end Scan

/-- A dash before what comes after an `@` and its name is the last character of the name. -/
theorem getLast?_of_dash {skipped : List Char}
    (dash : (skipped.reverse ++ '@' :: before).head? = some '-') : skipped.getLast? = some '-' := by
  rw [List.head?_append, List.head?_reverse] at dash
  cases found : skipped.getLast? with
  | none => simp [found] at dash
  | some last => simpa [found] using dash

theorem Turn.inMarkup_plus (turn : Turn scan before c rest next) (plus : c = '+')
    (markup : next.inMarkup = true) : scan.inMarkup = true := by
  cases turn with
  | statement => exact markup
  | captured => exact markup
  | literal _ _ mode idle | withheld _ _ mode idle => exact Scan.inMarkup_iff.2 ⟨mode, idle⟩
  | lead => exact markup
  | carry => exact markup
  | sigil => exact absurd (Scan.inMarkup_iff.1 markup).2 (by simp)
  | opening | write | brace | endExpression | endBound => exact absurd plus (by decide)

theorem Turn.dashed {line : Nat} (turn : Turn scan before c rest next)
    (dashed : scan.Dashed before (c :: rest))
    (clear : (Act.read scan.lexing c ⟨line, before, c :: rest⟩).isAmbiguous
      ⟨line, before, c :: rest⟩ = false) : next.Dashed (c :: before) rest := by
  cases turn with
  | statement _ _ mode =>
    intro markup
    exact absurd (mode.symm.trans (Scan.inMarkup_iff.1 markup).1) (by decide)
  | opening _ _ _ passes => exact Scan.dashed_of_ne passes (by decide)
  | literal _ _ mode _ passes =>
    by_cases dash : c = '-'
    · subst dash
      exact fun _ _ _ => ⟨passes, scan.draft.recent_textChar '-'⟩
    · exact Scan.dashed_of_ne passes dash
  | lead _ _ _ passes => exact Scan.dashed_of_ne passes (by decide)
  | carry _ _ _ passes => exact Scan.dashed_of_ne passes (by decide)
  | write call skipped left _ _ _ written read =>
    intro _ dash shorthand
    rw [List.take_left] at dash
    rw [List.drop_left] at shorthand
    -- The dash is the last character of the name, and the call is ambiguous.
    have last : skipped.getLast? = some '-' := getLast?_of_dash dash
    rw [read line] at clear
    cases written with
    | all => exact absurd last (by decide)
    | html | pop => simp [Act.isAmbiguous, AttributeCall.name?, last, shorthand] at clear
  | sigil => exact Scan.dashed_of_active rfl
  | withheld _ _ mode idle left withheld =>
    intro markup dash shorthand
    have earlier := dashed (Scan.inMarkup_iff.2 ⟨mode, idle⟩)
    rw [withheld, List.take_succ_cons, List.reverse_cons, List.append_assoc] at earlier
    exact absurd (earlier dash shorthand).1 (Nat.succ_ne_zero left)
  | brace _ _ _ active => exact Scan.dashed_of_active active
  | captured _ _ _ _ active => exact Scan.dashed_of_active active
  | endExpression _ _ _ passes => exact Scan.dashed_of_ne passes (by decide)
  | endBound _ _ _ _ passes => exact Scan.dashed_of_ne passes (by decide)

namespace Scan

/-- A scan at a place of a line that has read this text, as far as it counts. -/
structure Spells (bodyOf : String → String) (scan : Scan) (before rest text : List Char) :
    Prop where
  phase : Phase scan.lexing before rest
  reads : scan.Reads bodyOf (text ++ rest.take scan.lexing.withheld)
  led : before = [] → rest.head? = some '+' → scan.lexing.plusLed = true
  dashed : scan.Dashed before rest

namespace Spells

theorem visit {line : Nat} (spells : scan.Spells bodyOf before (c :: rest) text)
    (clear : (Act.read scan.lexing c ⟨line, before, c :: rest⟩).isAmbiguous
      ⟨line, before, c :: rest⟩ = false)
    (agrees : ∀ helper ∈ (scan.step (.visit c ⟨line, before, c :: rest⟩)).draft.helpers,
      bodyOf helper.name = helper.body)
    (inner : ¬scan.AtEdge before rest c) :
    (scan.step (.visit c ⟨line, before, c :: rest⟩)).Spells bodyOf (c :: before) rest
      (text ++ [c]) := by
  have turn := spells.phase.turn line
  have dash : scan.inMarkup = true → scan.lexing.withheld = 0 → before.head? = some '-' → c = '@' →
      ∃ (content : String) (older : List Piece),
        scan.draft.recent = .text (content.push '-') :: older := by
    intro markup passes dash shorthand
    have dashed := spells.dashed markup
    rw [passes] at dashed
    exact (dashed dash (congrArg some shorthand)).2
  refine ⟨spells.phase.step, turn.reads spells.reads dash agrees inner, ?_, ?_⟩
  · exact fun first => absurd first (List.cons_ne_nil _ _)
  · exact turn.dashed spells.dashed clear

theorem edge {line : Nat} (spells : scan.Spells bodyOf before ('+' :: rest) text)
    (edge : scan.AtEdge before rest '+') :
    (scan.step (.visit '+' ⟨line, before, '+' :: rest⟩)).Spells bodyOf ('+' :: before) rest text ∧
      (scan.step (.visit '+' ⟨line, before, '+' :: rest⟩)).inMarkup = true := by
  obtain ⟨markup, -, place⟩ := edge
  obtain ⟨mode, idle⟩ := inMarkup_iff.1 markup
  have passes := spells.phase.passes_of_idle idle (by decide) (by decide)
  have phase : Phase (scan.step (.visit '+' ⟨line, before, '+' :: rest⟩)).lexing
      ('+' :: before) rest := spells.phase.step
  have spelled := (spells.reads.of_passes passes).of_idle idle
  have stepped : ∃ continues, scan.step (.visit '+' ⟨line, before, '+' :: rest⟩) =
      { scan with lexing := { scan.lexing with continues } } := by
    by_cases first : before = []
    · exact ⟨_, step_lead mode idle passes (isFirst_iff.2 first) (spells.led first rfl)⟩
    · refine ⟨_, step_carry mode idle passes ?_ (isLast_iff.2 (place.resolve_left first))⟩
      simpa [Cursor.isFirst] using first
  obtain ⟨continues, same⟩ := stepped
  rw [same] at phase ⊢
  refine ⟨⟨phase, ?_, fun first => absurd first (List.cons_ne_nil _ _), ?_⟩, markup⟩
  · refine .idle idle ?_
    show scan.draft.spelled bodyOf = text ++ rest.take scan.lexing.withheld
    rw [passes, List.take_zero, List.append_nil, spelled]
  · exact dashed_of_ne passes (by decide)

end Spells

end Scan

end ScriptedMarkup
