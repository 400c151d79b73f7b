import ScriptedMarkup.Proofs.Body.Hoisting
import ScriptedMarkup.Proofs.Scan.Balanced

/-!
# Literals of a body are closed

The end of a source closes the literal that is open there, so that a body is complete whatever its
source ends within (`Body.literals_balanced`).
-/

namespace ScriptedMarkup

theorem Draft.ends_code {text : String} (shown : text ≠ "") (draft : Draft) :
    ∃ statements before, (draft.code text).recent = .code (statements ++ text) :: before := by
  obtain ⟨recent, helpers, held⟩ := draft
  unfold code
  rw [if_neg (by simpa using shown)]
  split
  · next before older _ => exact ⟨before, older, rfl⟩
  · exact ⟨"", recent, by simp⟩

namespace Body

variable {prologue : String}

theorem balanced_finish {scan : Scan} (notTag : scan.lexing.mode ≠ .tag)
    (balanced : Draft.Balanced prologue scan.lexing.opened? scan.draft.recent) :
    Draft.Balanced prologue none (finish scan).recent := by
  have kept : (if scan.lexing.capture.isSome then scan.draft.release.2 else scan.draft).recent =
      scan.draft.recent := by
    split <;> rfl
  unfold finish
  refine Draft.Balanced.code_recent ?_ _
  cases mode : scan.lexing.mode with
  | script =>
    rw [Lexing.opened?_of_script mode] at balanced
    rw [if_neg (by decide), kept]
    exact balanced
  | markup =>
    rw [Lexing.opened?_of_markup mode] at balanced
    rw [if_pos rfl, Draft.push, kept]
    exact .closes balanced
  | tag => exact absurd mode notTag

theorem balanced_run (names : NameSupply) {source : String} {seen more : List Signal}
    (shown : prologue ≠ "") (split : Signal.ofSource source = seen ++ more) :
    let scan := Scan.run { draft := .ofCode prologue, names } seen
    scan.lexing.mode ≠ .tag ∧
      Draft.Balanced prologue scan.lexing.opened? scan.draft.recent := by
  intro scan
  obtain ⟨unread, reached, -⟩ := reached_of_ofSource_eq { draft := .ofCode prologue, names } split
  have phase := reached.phase phase_initial
  exact ⟨phase.mode_ne_tag, reached.opened_balanced phase_initial (Draft.balanced_ofCode shown)⟩

theorem balanced_draft (names : NameSupply) (source : String) :
    Draft.Balanced Body.prologue none (draft names source).recent := by
  have whole : Signal.ofSource source = Signal.ofSource source ++ [] := (List.append_nil _).symm
  obtain ⟨notTag, balanced⟩ := balanced_run names (by decide : Body.prologue ≠ "") whole
  exact balanced_finish notTag balanced

/-- At every point of a run after a prologue the pieces are statements and closed literals, and one
literal that is open exactly when markup is read. A body is statements and closed literals only,
from its prologue to its epilogue. -/
theorem literals_balanced (names : NameSupply) (source : String) :
    (∀ prologue seen more, prologue ≠ "" → Signal.ofSource source = seen ++ more →
      (Scan.run { draft := .ofCode prologue, names } seen).Balanced) ∧
    Draft.Complete (draft names source).pieces ∧
    (∃ statements rest,
      (draft names source).pieces = .code (Body.prologue ++ statements) :: rest) ∧
    ∃ front statements,
      (draft names source).pieces = front ++ [.code (statements ++ epilogue)] := by
  have balanced := balanced_draft names source
  refine ⟨?_, balanced.shaped, ?_, ?_⟩
  · intro prologue seen more shown split
    obtain ⟨notTag, balanced⟩ := balanced_run names shown split
    exact Scan.balanced_of_opened notTag balanced
  · obtain ⟨statements, before, same⟩ := balanced.starts
    exact ⟨statements, before.reverse, by rw [Draft.pieces, same]; simp⟩
  · have shown : epilogue ≠ "" := by decide
    obtain ⟨statements, before, same⟩ := Draft.ends_code shown _
    exact ⟨before.reverse, statements, by rw [Draft.pieces, draft, finish, same]; simp⟩

end Body

end ScriptedMarkup
