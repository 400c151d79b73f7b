import ScriptedMarkup.Proofs.Body.LineStarts
import ScriptedMarkup.Proofs.Scan.Texts

/-!
# Line terminators in literals

A source is read line by line, so no text of a literal holds a line feed. A carriage return at the
end of a line is dropped with it; any other is a character like others, and one in markup is written
to the literal as it stands (`Body.terminators_of_text`).
-/

namespace ScriptedMarkup

theorem ordinary_return : Ordinary '\r' := by
  refine ⟨?_, by decide, by decide⟩
  unfold Inert
  decide

namespace Body

variable (names : NameSupply) (source : String)

theorem texts_finish (scan : Scan) : (finish scan).texts = scan.draft.texts := by
  have kept : (if scan.lexing.capture.isSome then scan.draft.release.2 else scan.draft).texts =
      scan.draft.texts := by
    split <;> rfl
  unfold finish
  rw [Draft.texts_code]
  split
  · rw [Draft.texts_push, kept, Piece.content_closeLiteral, List.append_nil]
  · exact kept

theorem return_mem_texts_iff : '\r' ∈ (draft names source).texts ↔
    (start names).ReadsText '\r' (Signal.ofSource source) := by
  have whole : Signal.ofSource source = Signal.ofSource source ++ [] := (List.append_nil _).symm
  obtain ⟨unread, reached, -⟩ := reached_of_ofSource_eq (start names) whole
  rw [draft, texts_finish]
  refine reached.mem_texts_iff phase_initial ordinary_return ?_
  rw [start, Draft.ofCode, Draft.texts_code]
  exact List.not_mem_nil

/-- No text of a literal holds a line feed. One holds a carriage return exactly when such a character
is read in markup, outside of captures. -/
theorem terminators_of_text :
    (∀ content, .text content ∈ (draft names source).pieces → '\n' ∉ content.toList) ∧
      ((∃ content, .text content ∈ (draft names source).pieces ∧ '\r' ∈ content.toList) ↔
        ∃ seen place more, Signal.ofSource source = seen ++ .visit '\r' place :: more ∧
          ((start names).run seen).inMarkup = true) := by
  refine ⟨?_, ?_⟩
  · intro content member
    exact lined_draft names source _ (List.mem_reverse.1 member)
  · rw [← Draft.mem_texts_iff]
    exact return_mem_texts_iff names source

/-- A carriage return within a line of markup is not escaped. -/
example : (compile {} "<p>a\rb</p>").1 =
    "'use strict';\nout.html += '<p>a\rb</p>';\n\nreturn out.write ();" := by
  decide +kernel

end Body

end ScriptedMarkup
