import ScriptedMarkup.Proofs.Draft.Basic

/-!
# Spelling

`Draft.spelled` writes pieces the way that a source has them, with the text of a helper where its
name is referred to. Whatever adds to a draft adds to its spelling what was read for it.
-/

namespace ScriptedMarkup

def Binding.sigil : Binding → Char
  | callback => '#'
  | getter => '?'

def Capture.sigil : Capture → Char
  | expression => '$'
  | bound binding => binding.sigil

def AttributeCall.spelling : AttributeCall → List Char
  | html name => '@' :: name.toList
  | pop name => '-' :: '@' :: name.toList
  | all => ['@', '@']

/-- How a piece is written in a source, when the names of helpers stand for these texts. -/
def Piece.spelling (bodyOf : String → String) : Piece → List Char
  | code content | text content => content.toList
  | expression source => '$' :: '{' :: source.toList ++ ['}']
  | reference binding name => binding.sigil :: '{' :: (bodyOf name).toList ++ ['}']
  | call attributes => attributes.spelling
  | lineBreak => ['\n']
  | openLiteral | closeLiteral => []

namespace Draft

def bodyOf (draft : Draft) (name : String) : String :=
  ((draft.helpers.find? (·.name == name)).map (·.body)).getD ""

def spelled (bodyOf : String → String) (draft : Draft) : List Char :=
  draft.pieces.flatMap (Piece.spelling bodyOf)

theorem bodyOf_of_mem {draft : Draft} {helper : Helper}
    (distinct : (draft.helpers.map (·.name)).Nodup) (member : helper ∈ draft.helpers) :
    draft.bodyOf helper.name = helper.body := by
  obtain ⟨earlier, later, split⟩ := List.append_of_mem member
  have found : draft.helpers.find? (·.name == helper.name) = some helper := by
    rw [split, List.map_append, List.nodup_append] at distinct
    rw [List.find?_eq_some_iff_append]
    refine ⟨by simp, earlier, later, split, ?_⟩
    intro other before
    have differ := distinct.2.2 _ (List.mem_map_of_mem before) helper.name (by simp)
    simpa using differ
  rw [bodyOf, found]
  rfl

section Writing

variable (bodyOf : String → String) (draft : Draft) (c : Char)

theorem spelled_of_recent {draft : Draft} {piece : Piece} {older : List Piece}
    (same : draft.recent = piece :: older) :
    draft.spelled bodyOf =
      older.reverse.flatMap (Piece.spelling bodyOf) ++ piece.spelling bodyOf := by
  rw [spelled, pieces, same, List.reverse_cons, List.flatMap_append, List.flatMap_singleton]

theorem spelled_push (piece : Piece) :
    (draft.push piece).spelled bodyOf = draft.spelled bodyOf ++ piece.spelling bodyOf :=
  spelled_of_recent bodyOf rfl

theorem spelled_codeChar : (draft.codeChar c).spelled bodyOf = draft.spelled bodyOf ++ [c] := by
  obtain ⟨recent, helpers, held⟩ := draft
  unfold codeChar
  split
  · next before older same =>
    obtain rfl : recent = .code before :: older := same
    simp [spelled, pieces, Piece.spelling]
  · simp [spelled, pieces, Piece.spelling]

theorem spelled_textChar : (draft.textChar c).spelled bodyOf = draft.spelled bodyOf ++ [c] := by
  obtain ⟨recent, helpers, held⟩ := draft
  unfold textChar
  split
  · next before older same =>
    obtain rfl : recent = .text before :: older := same
    simp [spelled, pieces, Piece.spelling]
  · simp [spelled, pieces, Piece.spelling]

theorem recent_textChar :
    ∃ (content : String) (older : List Piece),
      (draft.textChar c).recent = .text (content.push c) :: older := by
  obtain ⟨recent, helpers, held⟩ := draft
  unfold textChar
  split
  · exact ⟨_, _, rfl⟩
  · exact ⟨"", recent, rfl⟩

theorem trimText?_of_recent {content : String} {older : List Piece}
    (same : draft.recent = .text (content.push c) :: older) : draft.trimText? c ≠ none := by
  rw [trimText?_eq same]
  exact Option.some_ne_none _

theorem trimText?_textChar_ne_none : (draft.textChar c).trimText? c ≠ none := by
  obtain ⟨content, older, same⟩ := draft.recent_textChar c
  exact trimText?_of_recent _ c same

/-- The dash that a call takes back is spelled with the call. -/
theorem spelled_writeCall_pop {content : String} {older : List Piece}
    (dash : draft.recent = .text (content.push '-') :: older) (name : String) :
    (draft.writeCall (.pop name)).spelled bodyOf = draft.spelled bodyOf ++ '@' :: name.toList := by
  have spelled : ((draft.trimText? '-').getD draft).spelled bodyOf ++ ['-'] =
      draft.spelled bodyOf := by
    cases trimmed : draft.trimText? '-' with
    | none => exact absurd trimmed (trimText?_of_recent draft '-' dash)
    | some kept =>
      obtain ⟨content, recent, same, -, -, rest⟩ := of_trimText? _ _ trimmed
      rw [Option.getD_some, spelled_of_recent bodyOf same]
      rcases rest with ⟨rfl, rest⟩ | rest
      · rw [Draft.spelled, pieces, rest]
        rfl
      · simp [spelled_of_recent bodyOf rest, Piece.spelling]
  show (((draft.trimText? '-').getD draft).push (.call (.pop name))).spelled bodyOf = _
  rw [spelled_push, ← spelled, List.append_assoc]
  rfl

end Writing

end Draft

end ScriptedMarkup
