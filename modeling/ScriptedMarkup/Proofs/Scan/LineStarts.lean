import ScriptedMarkup.Proofs.Draft.LineStarts
import ScriptedMarkup.Proofs.Scan.Phase

/-!
# Starts of lines in a run

A line of a source that starts with `<` opens a literal, so that no line of statements starts with
it. Text and names are read from within one line (`Reached.lined_draft`).
-/

namespace ScriptedMarkup

theorem Reached.lined {start scan : Scan} {source : String} {seen : List Signal} {unread : Unread}
    (reached : Reached start source seen unread scan) : unread.Lined := by
  induction reached with
  | start => exact fun text member => Text.not_mem_of_mem_lines member
  | lineStart _ ih => exact ih.first
  | visit _ ih => exact ih.tail
  | lineEnd _ ih => exact ih.2

theorem NameSupply.lined_nameOf (n : Nat) : '\n' ∉ (nameOf n).toList := by
  intro member
  rcases mem_nameOf member with member | digit
  · exact absurd member (by decide)
  · exact absurd digit (by decide)

theorem AttributeCall.Written.lined {before name : List Char} {call : AttributeCall}
    (written : call.Written before name) : (Piece.call call).Lined := by
  have clean {name : List Char} (named : ∀ c ∈ name, Shorthand.continuesName c = true) :
      '\n' ∉ (String.ofList name).toList := by
    rw [String.toList_ofList]
    exact fun member => absurd (named _ member) (by decide)
  cases written with
  | all => trivial
  | html _ named | pop _ named => exact clean named

namespace Scan

/-- The pieces so far are as they should be, and statements stand within a line where the source
does. -/
structure Lined (before : List Char) (scan : Scan) : Prop where
  pieces : scan.draft.Lined
  line : scan.lexing.mode = .script → before ≠ [] → scan.draft.MidLine

variable {scan : Scan}

theorem lined_of_markup {before : List Char} (mode : scan.lexing.mode = .markup)
    (pieces : scan.draft.Lined) : scan.Lined before :=
  ⟨pieces, fun script => absurd (mode.symm.trans script) (by decide)⟩

theorem lined_extend {capture : Capture} (active : scan.lexing.capture = some capture)
    (lined : scan.draft.Lined) (c : Char) : (scan.extend c).Lined := by
  cases capture with
  | expression =>
    rw [extend_expression active]
    exact lined.expressionChar c
  | bound binding =>
    rw [extend_bound active]
    exact lined

end Scan

theorem Turn.lined {scan next : Scan} {before rest : List Char} {c : Char}
    (turn : Turn scan before c rest next) (feed : c ≠ '\n') (lined : scan.Lined before) :
    next.Lined (c :: before) := by
  obtain ⟨pieces, line⟩ := lined
  cases turn with
  | statement _ _ mode _ _ other =>
    have starts : c = '<' → scan.draft.MidLine := fun mark =>
      line mode fun first => other ⟨mark, first⟩
    exact ⟨pieces.codeChar starts, fun _ _ => Draft.midLine_codeChar feed⟩
  | opening =>
    exact Scan.lined_of_markup rfl ((pieces.push .openLiteral trivial).textChar feed)
  | literal _ _ mode => exact Scan.lined_of_markup mode (pieces.textChar feed)
  | lead _ mode | carry _ mode | withheld _ _ mode | brace _ _ mode | endExpression _ mode =>
    exact Scan.lined_of_markup mode pieces
  | write _ _ _ mode _ _ written => exact Scan.lined_of_markup mode (pieces.writeCall written.lined)
  | sigil capture _ _ mode =>
    refine Scan.lined_of_markup mode ?_
    cases capture with
    | expression => exact pieces.push (.expression "") trivial
    | bound binding => exact pieces
  | captured _ _ _ mode active =>
    exact Scan.lined_of_markup mode (Scan.lined_extend active pieces c)
  | endBound binding _ mode =>
    exact Scan.lined_of_markup mode
      (Draft.Lined.push pieces (.reference binding _) (NameSupply.lined_nameOf _))

theorem Phase.lined_endLine {scan : Scan} {before : List Char} (phase : Phase scan.lexing before [])
    (lined : scan.draft.Lined) : scan.endLine.draft.Lined := by
  cases phase with
  | script mode idle =>
    rw [Scan.endLine_script mode idle]
    exact lined.codeChar fun mark => absurd mark (by decide)
  | markup mode idle =>
    cases carried : scan.lexing.continues with
    | true =>
      rw [Scan.endLine_carried mode idle carried]
      exact lined.push .lineBreak trivial
    | false =>
      rw [Scan.endLine_closing mode idle carried]
      exact (lined.push .closeLiteral trivial).codeChar fun mark => absurd mark (by decide)
  | sigil _ _ _ _ _ brace => simp at brace
  | capturing capture mode active =>
    rw [Scan.endLine_capturing active]
    exact Scan.lined_extend active lined '\n'

theorem Reached.lined_draft {start scan : Scan} {source : String} {seen : List Signal}
    {unread : Unread} (reached : Reached start source seen unread scan)
    (phase : Phase start.lexing [] []) (lined : start.draft.Lined) : scan.Lined unread.before := by
  induction reached with
  | start => exact ⟨lined, fun _ within => absurd rfl within⟩
  | lineStart _ ih => exact ⟨ih.pieces, fun _ within => absurd rfl within⟩
  | visit reached ih => exact ((reached.phase phase).turn _).lined reached.lined.ne_feed ih
  | lineEnd reached ih =>
    exact ⟨(reached.phase phase).lined_endLine ih.pieces, fun _ within => absurd rfl within⟩

end ScriptedMarkup
