import ScriptedMarkup.Proofs.Draft.Spelling
import ScriptedMarkup.Proofs.Draft.Written
import ScriptedMarkup.Proofs.Manuscript.Basic
import ScriptedMarkup.Proofs.Scan.Step

/-!
# Manuscripts and drafts

A manuscript has the text of the draft that a scan has made (`Transcribes`). Every act and every
character keeps it so: the offset at which declarations are put into the text is the length of what
is before the piece that helpers are anchored to.
-/

namespace ScriptedMarkup

/-! ### What acts are for -/

/-- The lexical states in which a scan does something that is written down. -/
def Act.Fits (lexing : Lexing) : Act → Prop
  | openLiteral => lexing.mode = .script
  | leaveTag => lexing.mode = .tag
  | beginCapture _ | shorthand (.write _ _) => lexing.mode = .markup ∧ lexing.capture = none
  | endCapture capture => lexing.mode = .markup ∧ lexing.capture = some capture
  | _ => True

theorem Act.fits_read (lexing : Lexing) (c : Char) (place : Cursor) :
    (Act.read lexing c place).Fits lexing := by
  unfold read
  split
  · next mode =>
    unfold inScript
    split
    · exact mode
    · trivial
  · next mode =>
    unfold inTag
    split
    · trivial
    · split
      · exact mode
      · trivial
  · next capture mode active =>
    unfold inCapture
    split
    · trivial
    split
    · split
      · exact ⟨mode, active⟩
      · trivial
    split
    · cases read : Shorthand.read true place with
      | write call width => exact absurd read (Shorthand.read_capturing place call width)
      | _ => trivial
    · trivial
  · next mode idle =>
    unfold inMarkup
    split
    · split
      · trivial
      · split <;> trivial
    split
    · cases Shorthand.read false place with
      | write call width => exact ⟨mode, idle⟩
      | _ => trivial
    split
    · split
      · exact ⟨mode, idle⟩
      · trivial
    · trivial

/-! ### Dashes that can be taken back -/

namespace Draft

theorem isSome_trimText?_of_recent {draft next : Draft} (same : next.recent = draft.recent)
    (c : Char) : (next.trimText? c).isSome = (draft.trimText? c).isSome := by
  unfold trimText?
  rw [same]
  split
  · split
    · split <;> rfl
    · rfl
  · rfl

theorem trimText?_codeChar (draft : Draft) (c d : Char) : (draft.codeChar c).trimText? d = none := by
  unfold codeChar
  split <;> rfl

theorem isSome_trimText?_textChar (draft : Draft) (c d : Char) :
    ((draft.textChar c).trimText? d).isSome = (c == d) := by
  by_cases equal : c = d
  · subst equal
    rw [beq_self_eq_true, Option.isSome_iff_ne_none]
    exact draft.trimText?_textChar_ne_none c
  · obtain ⟨content, older, same⟩ := draft.recent_textChar c
    rw [beq_false_of_ne equal, trimText?, same]
    simp [equal]

end Draft

/-! ### The relation -/

/-- The offset of a manuscript is the length of the text before the open literal. All helpers are
anchored up to there. -/
def Manuscript.Spots (manuscript : Manuscript) (anchor : Nat) (draft : Draft) : Prop :=
  ∃ before, .openLiteral :: before <:+ draft.recent ∧ before.length = anchor ∧
    (∀ helper ∈ draft.helpers, helper.anchor ≤ before.length) ∧
    (Draft.textOf before draft.helpers).length = manuscript.spot

/-- A manuscript has the text of a scan's draft, but for what comes after an expression. -/
structure Transcribes (scan : Scan) (manuscript : Manuscript) : Prop where
  rooted : scan.draft.Rooted
  idle : scan.lexing.mode ≠ .markup → scan.lexing.capture = none
  dashed : manuscript.dashed = (scan.draft.trimText? '-').isSome
  expression : scan.lexing.capture = some .expression →
    ∃ source older, scan.draft.recent = .expression source :: older
  held : ∀ binding, scan.lexing.capture = some (.bound binding) →
    scan.draft.held = some (String.ofList manuscript.held)
  text : scan.draft.written =
    manuscript.body ++ (Manuscript.pending scan.lexing.capture).toList
  spots : scan.lexing.mode = .markup → manuscript.Spots scan.lexing.anchor scan.draft

namespace Manuscript.Spots

variable {manuscript : Manuscript} {anchor : Nat} {draft next : Draft}

theorem of_settled (spots : manuscript.Spots anchor draft)
    (settled : next.settled = draft.settled) (helpers : next.helpers = draft.helpers) :
    manuscript.Spots anchor next := by
  obtain ⟨before, suffix, length, due, spot⟩ := spots
  refine ⟨before, ?_, length, ?_, ?_⟩
  · apply (Draft.suffix_of_settled settled).2
    exact (Draft.suffix_dropWhile _ _).2 suffix
  · rw [helpers]
    exact due
  · rw [helpers]
    exact spot

theorem push (spots : manuscript.Spots anchor draft) (piece : Piece) :
    manuscript.Spots anchor (draft.push piece) := by
  obtain ⟨before, suffix, rest⟩ := spots
  exact ⟨before, suffix.trans (List.suffix_cons _ _), rest⟩

end Manuscript.Spots

namespace Transcribes

variable {scan : Scan} {manuscript : Manuscript}

theorem relexed (transcribes : Transcribes scan manuscript) {lexing : Lexing}
    (mode : lexing.mode = scan.lexing.mode) (capture : lexing.capture = scan.lexing.capture)
    (anchor : lexing.anchor = scan.lexing.anchor) :
    Transcribes { scan with lexing } manuscript := by
  obtain ⟨rooted, idle, dashed, expression, held, text, spots⟩ := transcribes
  refine ⟨rooted, ?_, dashed, ?_, ?_, ?_, ?_⟩
  · rwa [mode, capture]
  · rwa [capture]
  · rwa [capture]
  · rwa [capture]
  · rwa [mode, anchor]

/-! ### Outside captures -/

theorem body_eq (transcribes : Transcribes scan manuscript)
    (other : scan.lexing.capture ≠ some .expression) : manuscript.body = scan.draft.written := by
  have none : Manuscript.pending scan.lexing.capture = "" := by
    cases active : scan.lexing.capture with
    | none => rfl
    | some capture =>
      cases capture with
      | expression => exact absurd active other
      | bound binding => rfl
  rw [transcribes.text, none]
  simp

/-- Outside of captures it is enough that the texts are the same, and that declarations go to the
same place. -/
theorem of_idle {draft : Draft} {lexing : Lexing} {names : NameSupply} {manuscript : Manuscript}
    (idle : lexing.capture = none) (rooted : draft.Rooted)
    (dashed : manuscript.dashed = (draft.trimText? '-').isSome)
    (text : manuscript.body = draft.written)
    (spots : lexing.mode = .markup → manuscript.Spots lexing.anchor draft) :
    Transcribes { lexing, draft, names } manuscript where
  rooted := rooted
  idle := by
    intro _
    exact idle
  dashed := dashed
  expression := by
    intro active
    exact absurd (idle.symm.trans active) (by simp)
  held := by
    intro binding active
    exact absurd (idle.symm.trans active) (by simp)
  text := by
    rw [text, idle]
    exact (List.append_nil _).symm
  spots := spots

theorem not_expression (idle : scan.lexing.capture = none) :
    scan.lexing.capture ≠ some .expression := by
  rw [idle]
  simp

theorem opening (transcribes : Transcribes scan manuscript) (mode : scan.lexing.mode = .script) :
    Transcribes (scan.perform .openLiteral) (manuscript.perform scan.names .openLiteral) := by
  have idle : scan.lexing.capture = none := transcribes.idle (by rw [mode]; decide)
  have body := transcribes.body_eq (not_expression idle)
  refine of_idle idle (transcribes.rooted.push _) rfl ?_ ?_
  · rw [Draft.written_push transcribes.rooted, ← body]
    rfl
  · intro _
    refine ⟨scan.draft.recent, List.suffix_refl _, rfl, ?_, ?_⟩
    · intro helper member
      exact Nat.le_of_lt (transcribes.rooted helper member).lt_length
    · exact congrArg List.length body.symm

theorem calling (transcribes : Transcribes scan manuscript) (idle : scan.lexing.capture = none)
    (call : AttributeCall) (width : Nat) :
    Transcribes (scan.perform (.shorthand (.write call width)))
      (manuscript.perform scan.names (.shorthand (.write call width))) := by
  have body := transcribes.body_eq (not_expression idle)
  have settled := scan.draft.settled_writeCall call
  have helpers := scan.draft.helpers_writeCall call
  refine of_idle idle (transcribes.rooted.of_settled settled helpers) ?_ ?_ ?_
  · cases call <;> rfl
  · cases call with
    | pop name =>
      have dashed := transcribes.dashed
      show (if manuscript.dashed then manuscript.body.dropLast else manuscript.body) ++ _ =
        (((scan.draft.trimText? '-').getD scan.draft).push _).written
      cases trimmed : scan.draft.trimText? '-' with
      | none =>
        rw [trimmed] at dashed
        rw [dashed, Option.getD_none, Draft.written_push transcribes.rooted, ← body]
        rfl
      | some kept =>
        obtain ⟨dash, rooted⟩ := Draft.written_of_trimText? transcribes.rooted trimmed
        have taken : manuscript.body.dropLast = kept.written := by
          rw [body, dash]
          exact List.dropLast_concat
        rw [trimmed] at dashed
        rw [dashed, Option.getD_some, Draft.written_push rooted, ← taken]
        rfl
    | html name | all =>
      exact (congrArg (· ++ _) body).trans (Draft.written_push transcribes.rooted _).symm
  · intro mode
    have spots := (transcribes.spots mode).of_settled settled helpers
    cases call <;> exact spots

/-- A declaration in the middle of the text is a helper for the open literal. -/
theorem declaring (transcribes : Transcribes scan manuscript) {binding : Binding}
    (mode : scan.lexing.mode = .markup) (active : scan.lexing.capture = some (.bound binding)) :
    Transcribes (scan.perform (.endCapture (.bound binding)))
      (manuscript.perform scan.names (.endCapture (.bound binding))) := by
  have body := transcribes.body_eq (by rw [active]; simp)
  have held := transcribes.held binding active
  obtain ⟨before, opens, length, due, spot⟩ := transcribes.spots mode
  let helper : Helper :=
    { anchor := scan.lexing.anchor
      binding
      name := scan.names.next.1
      body := scan.draft.release.1 }
  have declaration : helper.render.toList ++ ['\n'] =
      manuscript.declaration binding scan.names.next.1 := by
    have same : scan.draft.release.1 = String.ofList manuscript.held := by
      rw [Draft.release, held]
      rfl
    cases binding <;> simp only [helper, Manuscript.declaration, Helper.render, same]
  have rooted : (scan.draft.release.2.hoist helper).Rooted := by
    intro other member
    rcases List.mem_append.1 member with member | member
    · exact transcribes.rooted other member
    · obtain rfl := List.mem_singleton.1 member
      exact ⟨before, opens, length⟩
  have spots : (manuscript.declare binding scan.names.next.1).Spots scan.lexing.anchor
      (scan.draft.release.2.hoist helper) := by
    refine ⟨before, opens, length, ?_, ?_⟩
    · intro other member
      rcases List.mem_append.1 member with member | member
      · exact due other member
      · obtain rfl := List.mem_singleton.1 member
        exact Nat.le_of_eq length.symm
    · show (Draft.textOf before (scan.draft.helpers ++ [helper])).length = _
      rw [Draft.textOf_concat length.symm, List.length_append, spot, declaration]
      rfl
  have text : (manuscript.declare binding scan.names.next.1).body =
      (scan.draft.release.2.hoist helper).written := by
    obtain ⟨after, whole, hoisted⟩ : ∃ after,
        scan.draft.release.2.written = Draft.textOf before scan.draft.helpers ++ after ∧
          (scan.draft.release.2.hoist helper).written =
            Draft.textOf before scan.draft.helpers ++ (helper.render.toList ++ ['\n']) ++ after :=
      Draft.written_hoist opens due length.symm
    have whole : manuscript.body = Draft.textOf before scan.draft.helpers ++ after :=
      body.trans whole
    rw [hoisted, declaration, Manuscript.declare, whole, ← spot, List.take_left, List.drop_left]
  apply of_idle rfl (rooted.push _) rfl
  · exact (congrArg (· ++ _) text).trans (Draft.written_push rooted _).symm
  · intro _
    exact spots.push _

theorem beginning (transcribes : Transcribes scan manuscript) {capture : Capture}
    (mode : scan.lexing.mode = .markup) (idle : scan.lexing.capture = none) :
    Transcribes (scan.perform (.beginCapture capture))
      (manuscript.perform scan.names (.beginCapture capture)) := by
  have body := transcribes.body_eq (not_expression idle)
  have spots := transcribes.spots mode
  cases capture with
  | expression =>
    refine ⟨transcribes.rooted.push _, ?_, rfl, ?_, ?_, ?_, ?_⟩
    · intro other
      exact absurd mode other
    · intro _
      exact ⟨"", _, rfl⟩
    · intro binding other
      exact absurd other (by simp [Scan.perform, Lexing.beginCapture])
    · show (scan.draft.push _).written = manuscript.body ++ "' + (".toList ++ ") + '".toList
      rw [Draft.written_push transcribes.rooted, ← body, List.append_assoc]
      simp [splice]
    · intro _
      exact spots.push _
  | bound binding =>
    have dashed : manuscript.dashed = (scan.draft.hold.trimText? '-').isSome :=
      transcribes.dashed.trans (Draft.isSome_trimText?_of_recent (by rfl) '-').symm
    refine ⟨transcribes.rooted, ?_, dashed, ?_, ?_, ?_, ?_⟩
    · intro other
      exact absurd mode other
    · intro other
      exact absurd other (by simp [Scan.perform, Lexing.beginCapture])
    · intro _ _
      rfl
    · exact body.symm.trans (List.append_nil _).symm
    · intro _
      exact spots

theorem ending (transcribes : Transcribes scan manuscript)
    (active : scan.lexing.capture = some .expression) :
    Transcribes (scan.perform (.endCapture .expression))
      (manuscript.perform scan.names (.endCapture .expression)) := by
  obtain ⟨source, older, last⟩ := transcribes.expression active
  have text := transcribes.text
  rw [active] at text
  refine of_idle rfl transcribes.rooted ?_ text.symm transcribes.spots
  show false = (scan.draft.trimText? '-').isSome
  rw [Draft.trimText?, last]
  rfl

/-- An act keeps the text the same, as it is read in the lexical state that it is for. -/
theorem perform (transcribes : Transcribes scan manuscript) {act : Act}
    (fits : act.Fits scan.lexing) :
    Transcribes (scan.perform act) (manuscript.perform scan.names act) := by
  cases act with
  | openLiteral => exact transcribes.opening fits
  | beginCapture capture => exact transcribes.beginning fits.1 fits.2
  | endCapture capture =>
    cases capture with
    | expression => exact transcribes.ending fits.2
    | bound binding => exact transcribes.declaring fits.1 fits.2
  | shorthand shorthand =>
    cases shorthand with
    | write call width => exact transcribes.calling fits.2 call width
    | _ => exact transcribes
  | leaveTag =>
    have mode : scan.lexing.mode = .tag := fits
    have idle : scan.lexing.capture = none := transcribes.idle (by rw [mode]; decide)
    refine of_idle idle transcribes.rooted transcribes.dashed
      (transcribes.body_eq (not_expression idle)) ?_
    intro other
    exact absurd other (by simp [Lexing.enter])
  | pass => exact transcribes
  | deepen | rise | lead | carry | refer => exact transcribes.relexed rfl rfl rfl

/-! ### Characters -/

theorem expressionChar (transcribes : Transcribes scan manuscript)
    (active : scan.lexing.capture = some .expression) (c : Char) :
    Transcribes { scan with draft := scan.draft.expressionChar c }
      (manuscript.write (String.singleton c)) := by
  obtain ⟨source, older, last⟩ := transcribes.expression active
  have text := transcribes.text
  rw [active] at text
  have grown := Draft.written_expressionChar transcribes.rooted last text c
  have shown : (scan.draft.expressionChar c).recent = .expression (source.push c) :: older := by
    rw [Draft.expressionChar, last]
  refine ⟨transcribes.rooted.of_settled (by simp) (by simp), transcribes.idle, ?_, ?_, ?_, ?_, ?_⟩
  · show false = ((scan.draft.expressionChar c).trimText? '-').isSome
    rw [Draft.trimText?, shown]
    rfl
  · intro _
    exact ⟨_, _, shown⟩
  · intro binding other
    exact absurd (active.symm.trans other) (by simp)
  · show (scan.draft.expressionChar c).written = _ ++ (Manuscript.pending scan.lexing.capture).toList
    rw [active, grown]
    simp [Manuscript.write, Manuscript.pending]
  · intro mode
    apply (transcribes.spots mode).of_settled
    · simp
    · simp

theorem heldChar (transcribes : Transcribes scan manuscript) {binding : Binding}
    (active : scan.lexing.capture = some (.bound binding)) (c : Char) :
    Transcribes { scan with draft := scan.draft.heldChar c }
      { manuscript with held := manuscript.held ++ [c] } := by
  have held := transcribes.held binding active
  have dashed : manuscript.dashed = ((scan.draft.heldChar c).trimText? '-').isSome :=
    transcribes.dashed.trans (Draft.isSome_trimText?_of_recent (by rfl) '-').symm
  refine ⟨transcribes.rooted, transcribes.idle, dashed, transcribes.expression, ?_,
    transcribes.text, transcribes.spots⟩
  intro other _
  simp [Draft.heldChar, held]

theorem codeChar (transcribes : Transcribes scan manuscript) (mode : scan.lexing.mode ≠ .markup)
    (c : Char) :
    Transcribes { scan with draft := scan.draft.codeChar c }
      (manuscript.write (String.singleton c)) := by
  have idle := transcribes.idle mode
  have body := transcribes.body_eq (not_expression idle)
  refine of_idle idle (transcribes.rooted.of_settled (by simp) (by simp)) ?_ ?_ ?_
  · rw [Draft.trimText?_codeChar]
    rfl
  · rw [Draft.written_codeChar transcribes.rooted, ← body]
    simp [Manuscript.write]
  · intro other
    exact absurd other mode

theorem textChar (transcribes : Transcribes scan manuscript) (mode : scan.lexing.mode = .markup)
    (idle : scan.lexing.capture = none) (c : Char) :
    Transcribes { scan with draft := scan.draft.textChar c } (manuscript.textChar c) := by
  have body := transcribes.body_eq (not_expression idle)
  refine of_idle idle (transcribes.rooted.of_settled (by simp) (by simp)) ?_ ?_ ?_
  · rw [Draft.isSome_trimText?_textChar]
    rfl
  · rw [Draft.written_textChar transcribes.rooted, ← body]
    rfl
  · intro _
    apply (transcribes.spots mode).of_settled
    · simp
    · simp

theorem extend (transcribes : Transcribes scan manuscript) (c : Char) :
    Transcribes { scan with draft := scan.extend c } (manuscript.extend scan.lexing c) := by
  unfold Scan.extend Manuscript.extend
  cases active : scan.lexing.capture with
  | some capture =>
    cases capture with
    | expression => exact transcribes.expressionChar active c
    | bound binding => exact transcribes.heldChar active c
  | none =>
    cases mode : scan.lexing.mode with
    | script => exact transcribes.codeChar (by rw [mode]; decide) c
    | markup => exact transcribes.textChar mode active c
    | tag => exact transcribes

theorem receive (transcribes : Transcribes scan manuscript) (c : Char) :
    Transcribes (scan.receive c) (manuscript.receive scan.lexing c) := by
  unfold Scan.receive Manuscript.receive
  split
  · exact transcribes.extend c
  · exact transcribes.relexed rfl rfl rfl

/-! ### Lines -/

theorem startLine (transcribes : Transcribes scan manuscript) (place : Cursor) :
    Transcribes (scan.startLine place) manuscript :=
  transcribes.relexed rfl rfl rfl

theorem endLine (transcribes : Transcribes scan manuscript) :
    Transcribes scan.endLine (manuscript.endLine scan.lexing) := by
  cases active : scan.lexing.capture with
  | some capture =>
    rw [Scan.endLine_capturing active, Manuscript.endLine, active]
    exact (transcribes.extend '\n').relexed rfl rfl rfl
  | none =>
    have body := transcribes.body_eq (not_expression active)
    have rooted := transcribes.rooted
    cases mode : scan.lexing.mode with
    | script =>
      rw [Scan.endLine_script mode active, Manuscript.endLine, active, mode]
      exact (transcribes.codeChar (by rw [mode]; decide) '\n').relexed rfl rfl rfl
    | tag =>
      have ended : scan.endLine =
          { scan with
            lexing := { scan.lexing with continues := false }
            draft := scan.draft.codeChar '\n' } := by
        simp [Scan.endLine, active, mode]
      rw [ended, Manuscript.endLine, active, mode]
      exact (transcribes.codeChar (by rw [mode]; decide) '\n').relexed rfl rfl rfl
    | markup =>
      cases carried : scan.lexing.continues with
      | true =>
        rw [Scan.endLine_carried mode active carried, Manuscript.endLine, active, mode]
        dsimp only
        rw [if_pos carried]
        refine of_idle active (rooted.push _) rfl ?_ ?_
        · exact (congrArg (· ++ _) body).trans (Draft.written_push rooted _).symm
        · intro _
          exact (transcribes.spots mode).push _
      | false =>
        rw [Scan.endLine_closing mode active carried, Manuscript.endLine, active, mode]
        dsimp only
        rw [if_neg (by rw [carried]; decide)]
        have closed := rooted.push .closeLiteral
        refine of_idle active (closed.of_settled (by simp) (by simp)) ?_ ?_ ?_
        · rw [Draft.trimText?_codeChar]
          rfl
        · rw [Draft.written_codeChar closed, Draft.written_push rooted, ← body]
          rfl
        · intro other
          exact absurd (show Mode.script = .markup from other) (by decide)

theorem step (transcribes : Transcribes scan manuscript) (signal : Signal) :
    Transcribes (scan.step signal) (manuscript.step scan signal) := by
  cases signal with
  | lineStart place => exact transcribes.startLine place
  | visit c place =>
    exact (transcribes.perform (Act.fits_read scan.lexing c place)).receive c
  | lineEnd place => exact transcribes.endLine

theorem run (transcribes : Transcribes scan manuscript) (signals : List Signal) :
    Transcribes (scan.run signals) (manuscript.run scan signals) := by
  induction signals generalizing scan manuscript with
  | nil => exact transcribes
  | cons signal signals ih => exact ih (transcribes.step signal)

end Transcribes

end ScriptedMarkup
