import ScriptedMarkup.Body
import ScriptedMarkup.Proofs.Draft.Normal

/-!
# Bodies in normal form

A scan does nothing with its draft but operations (`Scan.performed_run`), so the draft of every body is
in normal form (`Body.normal_draft`).
-/

namespace ScriptedMarkup

namespace Draft

/-- What can become of a draft by operations. -/
def Performed (draft next : Draft) : Prop := ∃ operations, next = draft.performAll operations

variable {draft next later : Draft}

theorem Performed.refl (draft : Draft) : draft.Performed draft := ⟨[], rfl⟩

theorem Performed.trans (first : draft.Performed next) (second : next.Performed later) :
    draft.Performed later := by
  obtain ⟨operations, rfl⟩ := first
  obtain ⟨more, rfl⟩ := second
  exact ⟨operations ++ more, List.foldl_append.symm⟩

theorem performed_one (draft : Draft) (operation : Operation) :
    draft.Performed (draft.perform operation) := ⟨[operation], rfl⟩

theorem Performed.normal (performed : draft.Performed next) (normal : draft.Normal) : next.Normal := by
  obtain ⟨operations, rfl⟩ := performed
  exact normal.performAll operations

theorem performed_writeCall (draft : Draft) (call : AttributeCall) :
    draft.Performed (draft.writeCall call) := by
  cases call with
  | pop name => exact ⟨[.trimText '-', .call (.pop name)], rfl⟩
  | html name => exact draft.performed_one (.call (.html name))
  | all => exact draft.performed_one (.call .all)

end Draft

namespace Scan

theorem performed_extend (scan : Scan) (c : Char) : scan.draft.Performed (scan.extend c) := by
  unfold extend
  split
  · exact scan.draft.performed_one (.expressionChar c)
  · exact scan.draft.performed_one (.heldChar c)
  · exact scan.draft.performed_one (.codeChar c)
  · exact scan.draft.performed_one (.textChar c)
  · exact .refl _

theorem performed_receive (scan : Scan) (c : Char) : scan.draft.Performed (scan.receive c).draft := by
  unfold receive
  split
  · exact scan.performed_extend c
  · exact .refl _

theorem performed_perform (scan : Scan) (act : Act) :
    scan.draft.Performed (scan.perform act).draft := by
  cases act with
  | openLiteral => exact scan.draft.performed_one .openLiteral
  | beginCapture capture =>
    cases capture with
    | expression => exact scan.draft.performed_one .beginExpression
    | bound => exact scan.draft.performed_one .hold
  | endCapture capture =>
    cases capture with
    | expression => exact .refl _
    | bound binding => exact ⟨[.release, .hoist _, .reference binding _], rfl⟩
  | shorthand shorthand =>
    cases shorthand with
    | write call width => exact scan.draft.performed_writeCall call
    | _ => exact .refl _
  | _ => exact .refl _

theorem performed_endLine (scan : Scan) : scan.draft.Performed scan.endLine.draft := by
  unfold endLine
  dsimp only
  split
  · split
    · exact scan.draft.performed_one .lineBreak
    · exact ⟨[.closeLiteral, .codeChar '\n'], rfl⟩
  · exact scan.draft.performed_one (.codeChar '\n')
  · exact scan.performed_extend '\n'

theorem performed_step (scan : Scan) (signal : Signal) :
    scan.draft.Performed (scan.step signal).draft := by
  cases signal with
  | lineStart place => exact .refl _
  | visit c place => exact (scan.performed_perform _).trans (performed_receive _ c)
  | lineEnd place => exact scan.performed_endLine

theorem performed_run (scan : Scan) (signals : List Signal) :
    scan.draft.Performed (scan.run signals).draft := by
  induction signals generalizing scan with
  | nil => exact .refl _
  | cons signal signals ih => exact (scan.performed_step signal).trans (ih _)

end Scan

namespace Body

theorem performed_finish (scan : Scan) : scan.draft.Performed (finish scan) := by
  have kept : scan.draft.Performed
      (if scan.lexing.capture.isSome then scan.draft.release.2 else scan.draft) := by
    split
    · exact scan.draft.performed_one .release
    · exact .refl _
  refine kept.trans ?_
  unfold finish
  generalize (if scan.lexing.capture.isSome then scan.draft.release.2 else scan.draft) = draft
  dsimp only
  split
  · exact ⟨[.closeLiteral, .code epilogue], rfl⟩
  · exact draft.performed_one (.code epilogue)

/-- No statements and no text in the draft of a body are without characters, and what could be one
piece is one. -/
theorem normal_draft (names : NameSupply) (source : String) : (draft names source).Normal := by
  have scanned : (start names).draft.Performed (scan names source).draft := Scan.performed_run _ _
  exact (scanned.trans (performed_finish _)).normal (Draft.normal_ofCode prologue)

end Body

end ScriptedMarkup
