import ScriptedMarkup.Proofs.Body.Hoisting
import ScriptedMarkup.Proofs.Manuscript.Transcription

/-!
# Bodies as manuscripts

The text of a body is the one that a manuscript has in the end. Weaving declarations in when all
pieces are known comes to the same as splicing each of them into the text at once
(`Body.text_of_manuscript`).
-/

namespace ScriptedMarkup

theorem Draft.Hoisted.toList_render {draft : Draft} (hoisted : draft.Hoisted) :
    draft.render.toList = draft.written := by
  rw [hoisted.render_eq, hoisted.parts_eq]
  rfl

namespace Body

theorem transcribes_start (names : NameSupply) :
    Transcribes (start names) (.ofText prologue) := by
  apply Transcribes.of_idle rfl
  · intro helper member
    exact absurd member List.not_mem_nil
  · rfl
  · have empty : Draft.Rooted {} := by
      intro helper member
      exact absurd member List.not_mem_nil
    exact (Draft.written_code empty prologue).symm
  · intro other
    exact absurd other (by decide)

theorem transcribes_run (names : NameSupply) (signals : List Signal) :
    Transcribes ((start names).run signals) ((Manuscript.ofText prologue).run (start names) signals) :=
  (transcribes_start names).run signals

theorem written_finish {scan : Scan} {manuscript : Manuscript}
    (transcribes : Transcribes scan manuscript) :
    (finish scan).written = (manuscript.finish scan.lexing).body := by
  let kept := if scan.lexing.capture.isSome then scan.draft.release.2 else scan.draft
  have same : kept.recent = scan.draft.recent ∧ kept.helpers = scan.draft.helpers := by
    unfold kept
    split <;> exact ⟨rfl, rfl⟩
  have rooted : kept.Rooted := by
    intro helper member
    rw [same.2] at member
    rw [same.1]
    exact transcribes.rooted helper member
  have text : kept.written = (manuscript.write (Manuscript.pending scan.lexing.capture)).body := by
    rw [Draft.written, same.1, same.2]
    exact transcribes.text
  show ((if scan.lexing.mode = .markup then kept.push .closeLiteral else kept).code epilogue).written = _
  unfold Manuscript.finish
  split
  · rw [Draft.written_code (rooted.push _), Draft.written_push rooted, text]
    rfl
  · rw [Draft.written_code rooted, text]
    rfl

/-- At every point of a run outside of captures the draft has the text of the manuscript, into which
each declaration was spliced when its capture ended. The body has the text of the manuscript at the
end. -/
theorem text_of_manuscript (names : NameSupply) (source : String) :
    let manuscript := (Manuscript.ofText prologue).run (start names)
    (∀ seen more, Signal.ofSource source = seen ++ more →
      ((start names).run seen).lexing.capture = none →
      ((start names).run seen).draft.render = String.ofList (manuscript seen).body) ∧
    (compile names source).1 = String.ofList
      ((manuscript (Signal.ofSource source)).finish (scan names source).lexing).body := by
  intro manuscript
  refine ⟨?_, ?_⟩
  · intro seen more split idle
    have hoisted := ((begins_start names).hoists split).declares.hoisted
    have transcribes := transcribes_run names seen
    have body := transcribes.body_eq (Transcribes.not_expression idle)
    rw [← String.toList_inj, hoisted.toList_render, String.toList_ofList]
    exact body.symm
  · have transcribes := transcribes_run names (Signal.ofSource source)
    have hoisted := hoisted_draft names source
    rw [← String.toList_inj, String.toList_ofList]
    exact hoisted.toList_render.trans (written_finish transcribes)

end Body

end ScriptedMarkup
