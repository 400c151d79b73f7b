import ScriptedMarkup.Proofs.Draft.Basic
import ScriptedMarkup.Proofs.Draft.Blocks
import ScriptedMarkup.Proofs.Scan.Step

/-!
# Characters of literals

`Draft.texts` is what literals are made of as characters: neither statements nor expressions, names
and calls. Only `Draft.textChar` adds to it.
-/

namespace ScriptedMarkup

def Piece.content : Piece → List Char
  | text content => content.toList
  | _ => []

@[simp]
theorem Piece.content_call (attributes : AttributeCall) : (call attributes).content = [] := rfl

@[simp]
theorem Piece.content_reference (binding : Binding) (name : String) :
    (reference binding name).content = [] := rfl

@[simp]
theorem Piece.content_openLiteral : openLiteral.content = [] := rfl

@[simp]
theorem Piece.content_lineBreak : lineBreak.content = [] := rfl

@[simp]
theorem Piece.content_closeLiteral : closeLiteral.content = [] := rfl

namespace Draft

/-- The characters of the literals in order. -/
def texts (draft : Draft) : List Char := draft.pieces.flatMap Piece.content

theorem mem_texts_iff {draft : Draft} {c : Char} :
    c ∈ draft.texts ↔ ∃ content, .text content ∈ draft.pieces ∧ c ∈ content.toList := by
  rw [texts, List.mem_flatMap]
  constructor
  · rintro ⟨piece, member, inside⟩
    cases piece with
    | text content => exact ⟨content, member, inside⟩
    | _ => exact absurd inside List.not_mem_nil
  · rintro ⟨content, member, inside⟩
    exact ⟨_, member, inside⟩

variable (draft : Draft) (c : Char)

@[simp]
theorem texts_push (piece : Piece) : (draft.push piece).texts = draft.texts ++ piece.content := by
  simp [texts]

@[simp]
theorem texts_code (text : String) : (draft.code text).texts = draft.texts := by
  obtain ⟨recent, helpers, held⟩ := draft
  unfold code
  split
  · rfl
  split
  · next before older same =>
    obtain rfl : recent = .code before :: older := same
    simp [texts, pieces, Piece.content]
  · simp [texts, pieces, Piece.content]

@[simp]
theorem texts_codeChar : (draft.codeChar c).texts = draft.texts := by
  rw [← code_singleton, texts_code]

@[simp]
theorem texts_textChar : (draft.textChar c).texts = draft.texts ++ [c] := by
  obtain ⟨recent, helpers, held⟩ := draft
  unfold textChar
  split
  · next before older same =>
    obtain rfl : recent = .text before :: older := same
    simp [texts, pieces, Piece.content]
  · simp [texts, pieces, Piece.content]

@[simp]
theorem texts_expressionChar : (draft.expressionChar c).texts = draft.texts := by
  obtain ⟨recent, helpers, held⟩ := draft
  unfold expressionChar
  split
  · next before older same =>
    obtain rfl : recent = .expression before :: older := same
    simp [texts, pieces, Piece.content]
  · rfl

@[simp]
theorem texts_capturing (capture : Capture) (text : String) :
    (draft.capturing capture text).texts = draft.texts := by
  cases capture with
  | expression => exact (draft.texts_push _).trans (List.append_nil _)
  | bound binding => rfl

@[simp]
theorem texts_release : draft.release.2.texts = draft.texts := rfl

@[simp]
theorem texts_hoist (helper : Helper) : (draft.hoist helper).texts = draft.texts := rfl

/-- A call takes back no character but a dash. -/
theorem mem_texts_writeCall {c : Char} (other : c ≠ '-') (call : AttributeCall) :
    c ∈ (draft.writeCall call).texts ↔ c ∈ draft.texts := by
  cases call with
  | pop name =>
    rw [writeCall, texts_push, Piece.content_call, List.append_nil]
    cases trimmed : draft.trimText? '-' with
    | none => rfl
    | some kept =>
      obtain ⟨content, recent, same, -, -, rest⟩ := of_trimText? _ _ trimmed
      rcases rest with ⟨rfl, rest⟩ | rest <;>
        simp [texts, pieces, Piece.content, same, rest, other]
  | html name | all => simp [writeCall]

end Draft

end ScriptedMarkup
