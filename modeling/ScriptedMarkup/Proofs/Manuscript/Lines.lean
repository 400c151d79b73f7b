import ScriptedMarkup.Proofs.Manuscript.Transcription
import ScriptedMarkup.Proofs.Scan.LineStarts
import ScriptedMarkup.Proofs.Scan.Unbound

/-!
# Line feeds of a manuscript

Within a line of the source a manuscript is written on without line feeds (`Manuscript.Continues`),
and the end of the line adds one, be it to captured text. A declaration brings the line feeds of what
it declares into the text, with three of its own. So the line feeds written and held always come to
the same account (`Reached.feeds`).
-/

namespace ScriptedMarkup

/-! ### What is written within a line -/

namespace Piece

theorem lined_render_call {call : AttributeCall} (lined : (Piece.call call).Lined) :
    '\n' ∉ (Piece.call call).render.toList := by
  cases call with
  | all => decide
  | html name | pop name =>
    have escaped := escape_lined lined
    rw [Text.toList_escape] at escaped
    simp [AttributeCall.render, attributeName, splice, escaped]

theorem lined_render_reference {name : String} (lined : '\n' ∉ name.toList) (binding : Binding) :
    '\n' ∉ (Piece.reference binding name).render.toList := by
  cases binding <;> simp [splice, lined]

end Piece

/-- No name of an attribute call breaks a line. -/
def Act.Lined : Act → Prop
  | .shorthand (.write call _) => (Piece.call call).Lined
  | _ => True

theorem Act.lined_read (lexing : Lexing) (line : Nat) (before rest : List Char) (c : Char) :
    (Act.read lexing c ⟨line, before, c :: rest⟩).Lined := by
  unfold read
  split
  · unfold inScript
    split <;> trivial
  · unfold inTag
    split
    · trivial
    · split <;> trivial
  · unfold inCapture
    split
    · trivial
    split
    · split <;> trivial
    split
    · cases read : Shorthand.read true ⟨line, before, c :: rest⟩ with
      | write call width => exact absurd read (Shorthand.read_capturing _ call width)
      | _ => trivial
    · trivial
  · unfold inMarkup
    split
    · split
      · trivial
      · split <;> trivial
    split
    · next shorthand =>
      subst shorthand
      cases read : Shorthand.read false ⟨line, before, '@' :: rest⟩ with
      | write call width =>
        obtain ⟨skipped, left, -, -, written⟩ := written_of_read read
        exact written.lined
      | _ => trivial
    split
    · split <;> trivial
    · trivial

namespace Manuscript

/-- The text goes on without a line feed, but for a dash that may be struck out. -/
inductive Continues (manuscript next : Manuscript) : Prop where
  | same (body : next.body = manuscript.body) (dashed : next.dashed = manuscript.dashed)
  | writes (text : List Char) (lined : '\n' ∉ text) (body : next.body = manuscript.body ++ text)
      (dashed : next.dashed = true → text.getLast? = some '-')
  | strikes (kept text : List Char) (lined : '\n' ∉ text) (dashed : manuscript.dashed = true)
      (dash : manuscript.body = kept ++ ['-']) (body : next.body = kept ++ text)
      (clear : next.dashed = false)

variable {manuscript next : Manuscript}

theorem continues_write {text : String} (lined : '\n' ∉ text.toList) (manuscript : Manuscript) :
    manuscript.Continues (manuscript.write text) :=
  .writes text.toList lined rfl nofun

theorem continues_textChar {c : Char} (feed : c ≠ '\n') (manuscript : Manuscript) :
    manuscript.Continues (manuscript.textChar c) := by
  refine .writes (Text.escapeChar c) (lined_escapeChar feed) rfl ?_
  intro dash
  obtain rfl : c = '-' := beq_iff_eq.1 dash
  rfl

theorem continues_receive (lexing : Lexing) {c : Char} (feed : c ≠ '\n') (manuscript : Manuscript) :
    manuscript.Continues (manuscript.receive lexing c) := by
  have singleton : '\n' ∉ (String.singleton c).toList := by simpa using feed.symm
  unfold receive extend
  split
  · split
    · exact continues_write singleton manuscript
    · exact .same rfl rfl
    · exact continues_write singleton manuscript
    · exact continues_textChar feed manuscript
    · exact .same rfl rfl
  · exact .same rfl rfl

theorem Continues.count_eq (continues : manuscript.Continues next) :
    next.body.count '\n' = manuscript.body.count '\n' := by
  cases continues with
  | same body => rw [body]
  | writes text lined body =>
    rw [body, List.count_append, List.count_eq_zero.2 lined, Nat.add_zero]
  | strikes kept text lined _ dash body =>
    rw [body, dash, List.count_append, List.count_append, List.count_eq_zero.2 lined]
    rfl

end Manuscript

namespace Transcribes

variable {scan : Scan} {manuscript : Manuscript}

theorem continues_writeCall (transcribes : Transcribes scan manuscript)
    (idle : scan.lexing.capture = none) {call : AttributeCall} (lined : (Piece.call call).Lined) :
    manuscript.Continues (manuscript.writeCall call) := by
  have written := Piece.lined_render_call lined
  cases call with
  | html name | all => exact Manuscript.continues_write written manuscript
  | pop name =>
    have body := transcribes.body_eq (not_expression idle)
    have dashed := transcribes.dashed
    cases trimmed : scan.draft.trimText? '-' with
    | none =>
      rw [trimmed] at dashed
      refine .writes _ written ?_ nofun
      simp [Manuscript.writeCall, Manuscript.write, dashed]
    | some kept =>
      rw [trimmed] at dashed
      obtain ⟨dash, -⟩ := Draft.written_of_trimText? transcribes.rooted trimmed
      have dash : manuscript.body = kept.written ++ ['-'] := body.trans dash
      refine .strikes kept.written _ written dashed dash ?_ rfl
      simp [Manuscript.writeCall, Manuscript.write, dashed, dash]

/-- Every act but the end of a bound capture goes on with the line. -/
theorem continues_perform (transcribes : Transcribes scan manuscript) {act : Act}
    (fits : act.Fits scan.lexing) (lined : act.Lined)
    (other : ∀ binding, act ≠ .endCapture (.bound binding)) :
    manuscript.Continues (manuscript.perform scan.names act) := by
  cases act with
  | openLiteral => exact .writes Piece.openLiteral.render.toList (by decide) rfl nofun
  | beginCapture capture =>
    cases capture with
    | expression => exact Manuscript.continues_write (by decide) manuscript
    | bound binding => exact .same rfl rfl
  | endCapture capture =>
    cases capture with
    | expression => exact Manuscript.continues_write (by decide) manuscript
    | bound binding => exact absurd rfl (other binding)
  | shorthand shorthand =>
    cases shorthand with
    | write call width => exact transcribes.continues_writeCall fits.2 lined
    | _ => exact .same rfl rfl
  | _ => exact .same rfl rfl

end Transcribes

/-! ### The account of line feeds -/

theorem Helper.count_render (helper : Helper) (lined : '\n' ∉ helper.name.toList) :
    helper.render.toList.count '\n' = helper.body.toList.count '\n' + 2 := by
  have named := List.count_eq_zero.2 lined
  have opening : "var ".toList.count '\n' = 0 := by decide
  have closing : ";\n\x7d, this);".toList.count '\n' = 1 := by decide
  unfold Helper.render
  split
  · have signature : " = edb.$set(function(value, checked) \x7b\n".toList.count '\n' = 1 := by
      decide
    simp only [String.toList_append, List.count_append, opening, named, signature, closing]
    omega
  · have signature : " = edb.$set(function() \x7b\nreturn ".toList.count '\n' = 1 := by decide
    simp only [String.toList_append, List.count_append, opening, named, signature, closing]
    omega

namespace Manuscript

/-- The line feeds that are written, and those of a bound capture that is active. -/
def feeds (manuscript : Manuscript) (capture : Option Capture) : Nat :=
  match capture with
  | some (.bound _) => manuscript.body.count '\n' + manuscript.held.count '\n'
  | _ => manuscript.body.count '\n'

variable {manuscript next : Manuscript}

theorem Continues.feeds_eq (continues : manuscript.Continues next) (held : next.held = manuscript.held)
    (capture : Option Capture) : next.feeds capture = manuscript.feeds capture := by
  unfold feeds
  rw [continues.count_eq, held]

@[simp]
theorem feeds_none (manuscript : Manuscript) : manuscript.feeds none = manuscript.body.count '\n' := rfl

theorem count_declaration (manuscript : Manuscript) (binding : Binding) {name : String}
    (lined : '\n' ∉ name.toList) :
    (manuscript.declaration binding name).count '\n' = manuscript.held.count '\n' + 3 := by
  have helped := Helper.count_render
    { anchor := manuscript.spot, binding, name, body := String.ofList manuscript.held } lined
  rw [String.toList_ofList] at helped
  rw [declaration, List.count_append, helped]
  rfl

theorem count_declare (manuscript : Manuscript) (binding : Binding) {name : String}
    (lined : '\n' ∉ name.toList) :
    (manuscript.declare binding name).body.count '\n' =
      manuscript.body.count '\n' + manuscript.held.count '\n' + 3 := by
  have parts : manuscript.body.count '\n' =
      (manuscript.body.take manuscript.spot).count '\n' +
        (manuscript.body.drop manuscript.spot).count '\n' := by
    rw [← List.count_append, List.take_append_drop]
  simp only [declare, List.count_append, manuscript.count_declaration binding lined, parts]
  omega

theorem feeds_receive (lexing : Lexing) {c : Char} (feed : c ≠ '\n') (manuscript : Manuscript) :
    (manuscript.receive lexing c).feeds lexing.capture = manuscript.feeds lexing.capture := by
  have continues := continues_receive lexing feed manuscript
  cases active : lexing.capture with
  | none => exact continues.count_eq
  | some capture =>
    cases capture with
    | expression => exact continues.count_eq
    | bound binding =>
      unfold receive extend
      rw [active]
      split
      · simp [feeds, feed]
      · rfl

theorem feeds_endLine (lexing : Lexing) (manuscript : Manuscript) :
    (manuscript.endLine lexing).feeds lexing.capture = manuscript.feeds lexing.capture + 1 := by
  unfold endLine
  cases active : lexing.capture with
  | none =>
    cases mode : lexing.mode with
    | markup =>
      dsimp only
      split <;> simp [feeds, write]
    | script | tag => simp [feeds, write]
  | some capture =>
    cases capture with
    | expression => simp [extend, active, feeds, write]
    | bound binding => simp [extend, active, feeds, Nat.add_assoc]

theorem run_append (manuscript : Manuscript) (scan : Scan) (first second : List Signal) :
    manuscript.run scan (first ++ second) =
      (manuscript.run scan first).run (scan.run first) second := by
  induction first generalizing manuscript scan with
  | nil => rfl
  | cons signal first ih => exact ih _ _

theorem run_concat (manuscript : Manuscript) (scan : Scan) (seen : List Signal) (signal : Signal) :
    manuscript.run scan (seen ++ [signal]) =
      (manuscript.run scan seen).step (scan.run seen) signal :=
  run_append manuscript scan seen [signal]

end Manuscript

namespace Transcribes

variable {scan : Scan} {manuscript : Manuscript}

theorem feeds_perform (transcribes : Transcribes scan manuscript) {act : Act}
    (fits : act.Fits scan.lexing) (lined : act.Lined) :
    (manuscript.perform scan.names act).feeds (scan.perform act).lexing.capture +
        3 * scan.names.issued =
      manuscript.feeds scan.lexing.capture + 3 * (scan.perform act).names.issued := by
  have continues := transcribes.continues_perform fits lined
  cases act with
  | beginCapture capture =>
    obtain ⟨-, idle⟩ := fits
    rw [idle]
    cases capture with
    | expression => exact congrArg (· + _) (continues nofun).count_eq
    | bound binding => rfl
  | endCapture capture =>
    obtain ⟨-, active⟩ := fits
    rw [active]
    cases capture with
    | expression => exact congrArg (· + _) (continues nofun).count_eq
    | bound binding =>
      have named : '\n' ∉ scan.names.next.1.toList := NameSupply.lined_nameOf _
      have declared := manuscript.count_declare binding named
      have referred := Piece.lined_render_reference named binding
      have written := (Manuscript.continues_write referred
        (manuscript.declare binding scan.names.next.1)).count_eq
      show (((manuscript.declare binding scan.names.next.1).write _).body.count '\n') + _ =
        manuscript.body.count '\n' + manuscript.held.count '\n' + 3 * (scan.names.issued + 1)
      rw [written, declared]
      omega
  | shorthand shorthand =>
    cases shorthand with
    | write call width =>
      refine congrArg (· + _) ((continues nofun).feeds_eq ?_ _)
      cases call <;> rfl
    | _ => rfl
  | openLiteral => exact congrArg (· + _) ((continues nofun).feeds_eq rfl _)
  | _ => rfl

theorem feeds_visit (transcribes : Transcribes scan manuscript) {c : Char} (feed : c ≠ '\n')
    (line : Nat) (before rest : List Char) :
    let signal := Signal.visit c ⟨line, before, c :: rest⟩
    (manuscript.step scan signal).feeds (scan.step signal).lexing.capture +
        3 * scan.names.issued =
      manuscript.feeds scan.lexing.capture + 3 * (scan.step signal).names.issued := by
  intro signal
  have performed := transcribes.feeds_perform (Act.fits_read scan.lexing c ⟨line, before, c :: rest⟩)
    (Act.lined_read scan.lexing line before rest c)
  show (Manuscript.receive _ _ c).feeds (Scan.receive _ c).lexing.capture + _ =
    _ + 3 * (Scan.receive _ c).names.issued
  rw [Scan.capture_receive, Scan.names_receive, Manuscript.feeds_receive _ feed]
  exact performed

end Transcribes

/-- How many lines are still to end. -/
def Unread.lineEnds : Unread → Nat
  | lines _ more => more.length
  | within _ _ _ more => more.length + 1

/-- Every end of a line adds one line feed to what is written or held, and every name three. -/
theorem Reached.feeds {start scan : Scan} {source : String} {seen : List Signal} {unread : Unread}
    {manuscript : Manuscript} (reached : Reached start source seen unread scan)
    (transcribes : Transcribes start manuscript) :
    (manuscript.run start seen).feeds scan.lexing.capture + 3 * start.names.issued +
        unread.lineEnds =
      manuscript.feeds start.lexing.capture + (Text.lines source.toList).length +
        3 * scan.names.issued := by
  induction reached with
  | start =>
    show manuscript.feeds start.lexing.capture + _ + (Text.lines source.toList).length = _
    omega
  | lineStart reached ih =>
    rw [Manuscript.run_concat]
    exact ih
  | @visit seen scan line before c rest more reached ih =>
    have transcribed := transcribes.run seen
    rw [Manuscript.run_concat]
    rw [← reached.eq_run] at transcribed ⊢
    have visited := transcribed.feeds_visit reached.lined.ne_feed line before rest
    simp only [Unread.lineEnds] at ih ⊢
    omega
  | @lineEnd seen scan line before more reached ih =>
    have ended := (manuscript.run start seen).feeds_endLine scan.lexing
    rw [Manuscript.run_concat, ← reached.eq_run, Scan.capture_endLine, Scan.names_endLine,
      Manuscript.step]
    simp only [Unread.lineEnds] at ih ⊢
    omega

end ScriptedMarkup
