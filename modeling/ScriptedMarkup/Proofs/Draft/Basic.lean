import ScriptedMarkup.Draft.Basic

/-!
# What writing leaves alone

Adding characters and pieces to a draft changes neither its helpers nor the text that it holds.
-/

namespace ScriptedMarkup.Draft

variable (draft : Draft) (c : Char)

/-! ### Helpers -/

@[simp]
theorem helpers_push (piece : Piece) : (draft.push piece).helpers = draft.helpers := rfl

@[simp]
theorem helpers_codeChar : (draft.codeChar c).helpers = draft.helpers := by
  unfold codeChar
  split <;> rfl

@[simp]
theorem helpers_code (text : String) : (draft.code text).helpers = draft.helpers := by
  unfold code
  split
  · rfl
  · split <;> rfl

@[simp]
theorem helpers_textChar : (draft.textChar c).helpers = draft.helpers := by
  unfold textChar
  split <;> rfl

@[simp]
theorem helpers_expressionChar : (draft.expressionChar c).helpers = draft.helpers := by
  unfold expressionChar
  split <;> rfl

@[simp]
theorem helpers_heldChar : (draft.heldChar c).helpers = draft.helpers := rfl

theorem of_trimText? {kept : Draft} (trimmed : draft.trimText? c = some kept) :
    ∃ (content : String) (recent : List Piece), draft.recent = .text (content.push c) :: recent ∧
      kept.helpers = draft.helpers ∧ kept.held = draft.held ∧
      (content = "" ∧ kept.recent = recent ∨ kept.recent = .text content :: recent) := by
  unfold trimText? at trimmed
  split at trimmed
  · next content recent same =>
    split at trimmed
    · next last =>
      obtain ⟨shorter, split⟩ := List.getLast?_eq_some_iff.1 last
      have dropped : content.toList.dropLast = shorter := by simp [split]
      obtain rfl : content = (String.ofList shorter).push c := String.toList_inj.1 (by simp [split])
      rw [dropped] at trimmed
      refine ⟨String.ofList shorter, recent, same, ?_⟩
      cases shorter with
      | nil =>
        cases trimmed
        exact ⟨rfl, rfl, .inl ⟨rfl, rfl⟩⟩
      | cons first shorter =>
        cases trimmed
        exact ⟨rfl, rfl, .inr rfl⟩
    · cases trimmed
  · cases trimmed

theorem trimText?_eq {draft : Draft} {c : Char} {content : String} {older : List Piece}
    (same : draft.recent = .text (content.push c) :: older) :
    draft.trimText? c =
      some { draft with recent := if content = "" then older else .text content :: older } := by
  have kept : (content.push c).toList.dropLast = content.toList := by simp
  unfold trimText?
  rw [same]
  dsimp only
  rw [if_pos (by simp), kept]
  by_cases empty : content = ""
  · subst empty
    rfl
  · split
    · next none => exact absurd (String.toList_eq_nil_iff.1 none) empty
    · rw [if_neg empty, String.ofList_toList]

@[simp]
theorem helpers_writeCall (call : AttributeCall) :
    (draft.writeCall call).helpers = draft.helpers := by
  unfold writeCall
  split
  · cases trimmed : draft.trimText? '-' with
    | none => rfl
    | some kept =>
      obtain ⟨_, _, _, helpers, _⟩ := of_trimText? _ _ trimmed
      simpa using helpers
  · rfl

/-! ### Held text -/

@[simp]
theorem held_push (piece : Piece) : (draft.push piece).held = draft.held := rfl

@[simp]
theorem held_codeChar : (draft.codeChar c).held = draft.held := by
  unfold codeChar
  split <;> rfl

@[simp]
theorem held_code (text : String) : (draft.code text).held = draft.held := by
  unfold code
  split
  · rfl
  · split <;> rfl

@[simp]
theorem held_textChar : (draft.textChar c).held = draft.held := by
  unfold textChar
  split <;> rfl

@[simp]
theorem held_expressionChar : (draft.expressionChar c).held = draft.held := by
  unfold expressionChar
  split <;> rfl

@[simp]
theorem held_writeCall (call : AttributeCall) : (draft.writeCall call).held = draft.held := by
  unfold writeCall
  split
  · cases trimmed : draft.trimText? '-' with
    | none => rfl
    | some kept =>
      obtain ⟨_, _, _, _, held, _⟩ := of_trimText? _ _ trimmed
      simpa using held
  · rfl

/-! ### Statements in parts -/

theorem code_singleton : draft.code (String.singleton c) = draft.codeChar c := by
  unfold code codeChar
  rw [if_neg (by simp)]
  split <;> rfl

theorem code_append (first second : String) :
    draft.code (first ++ second) = (draft.code first).code second := by
  by_cases empty : first = ""
  · simp [code, empty]
  by_cases blank : second = ""
  · simp [code, blank]
  · obtain ⟨recent, helpers, held⟩ := draft
    cases recent with
    | nil => simp [code, empty, blank]
    | cons last recent => cases last <;> simp [code, empty, blank, String.append_assoc]

end ScriptedMarkup.Draft
