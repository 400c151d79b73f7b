import Mathlib.Data.List.Chain
import ScriptedMarkup.Proofs.Draft.Basic

/-!
# Normal form

Statements and text are written in parts, and what comes in a row makes one piece. A draft is in normal
form (`Draft.Normal`) whatever is done with it, in any order, and so taking back a character of text right
after it was written restores the draft (`Draft.normal_of_operations`).
-/

namespace ScriptedMarkup

namespace Piece

/-- Whether two pieces would be one if they stood next to each other. -/
def merges : Piece → Piece → Bool
  | code _, code _ | text _, text _ => true
  | _, _ => false

/-- Whether a piece is made of characters that are written one by one. -/
def isRun : Piece → Bool
  | code _ | text _ => true
  | _ => false

/-- No statements or text without characters, and none next to others of their kind. -/
structure Normal (pieces : List Piece) : Prop where
  code_ne : .code "" ∉ pieces
  text_ne : .text "" ∉ pieces
  apart : pieces.IsChain fun first second => first.merges second = false

theorem merges_comm (first second : Piece) : first.merges second = second.merges first := by
  cases first <;> cases second <;> rfl

theorem merges_code (text other : String) (next : Piece) :
    (code text).merges next = (code other).merges next := by
  cases next <;> rfl

theorem merges_text (content other : String) (next : Piece) :
    (text content).merges next = (text other).merges next := by
  cases next <;> rfl

theorem merges_of_not_isRun {piece : Piece} (whole : piece.isRun = false) (other : Piece) :
    piece.merges other = false := by
  cases piece with
  | code | text => exact absurd whole Bool.noConfusion
  | _ => rfl

namespace Normal

variable {piece : Piece} {pieces : List Piece}

theorem nil : Normal [] := ⟨List.not_mem_nil, List.not_mem_nil, .nil⟩

theorem reverse_iff : Normal pieces.reverse ↔ Normal pieces := by
  have turned : pieces.reverse.IsChain (fun first second => first.merges second = false) ↔
      pieces.IsChain fun first second => first.merges second = false := by
    simp only [List.isChain_reverse, merges_comm]
  constructor
  · rintro ⟨code, text, apart⟩
    exact ⟨by simpa using code, by simpa using text, turned.1 apart⟩
  · rintro ⟨code, text, apart⟩
    exact ⟨by simpa using code, by simpa using text, turned.2 apart⟩

theorem cons_iff :
    Normal (piece :: pieces) ↔
      piece ≠ .code "" ∧ piece ≠ .text "" ∧ (∀ next ∈ pieces.head?, piece.merges next = false) ∧
        Normal pieces := by
  constructor
  · rintro ⟨code, text, apart⟩
    rw [List.mem_cons, not_or] at code text
    obtain ⟨first, rest⟩ := List.isChain_cons.1 apart
    exact ⟨Ne.symm code.1, Ne.symm text.1, first, code.2, text.2, rest⟩
  · rintro ⟨code, text, first, rest⟩
    refine ⟨?_, ?_, List.isChain_cons.2 ⟨first, rest.apart⟩⟩
    · rw [List.mem_cons, not_or]
      exact ⟨Ne.symm code, rest.code_ne⟩
    · rw [List.mem_cons, not_or]
      exact ⟨Ne.symm text, rest.text_ne⟩

/-- The first piece can be another that merges with the same pieces. -/
theorem change {other : Piece} (normal : Normal (piece :: pieces))
    (same : ∀ next, other.merges next = piece.merges next) (code : other ≠ .code "")
    (text : other ≠ .text "") : Normal (other :: pieces) := by
  obtain ⟨-, -, first, rest⟩ := cons_iff.1 normal
  exact cons_iff.2 ⟨code, text, fun next member => (same next).trans (first next member), rest⟩

end Normal

end Piece

namespace Draft

/-- A draft without empty statements or text, and without two of one kind in a row. -/
def Normal (draft : Draft) : Prop := Piece.Normal draft.pieces

/-- What can be done with a draft. -/
inductive Operation where
  | code (text : String)
  | codeChar (c : Char)
  | textChar (c : Char)
  | openLiteral
  | closeLiteral
  | lineBreak
  | call (attributes : AttributeCall)
  | reference (binding : Binding) (name : String)
  | beginExpression
  | expressionChar (c : Char)
  | hold
  | heldChar (c : Char)
  | release
  | hoist (helper : Helper)
  | trimText (c : Char)
  deriving DecidableEq, Repr

/-- The draft after an operation. Where there is nothing to take back, it is as it was. -/
def perform (draft : Draft) : Operation → Draft
  | .code text => draft.code text
  | .codeChar c => draft.codeChar c
  | .textChar c => draft.textChar c
  | .openLiteral => draft.push .openLiteral
  | .closeLiteral => draft.push .closeLiteral
  | .lineBreak => draft.push .lineBreak
  | .call attributes => draft.push (.call attributes)
  | .reference binding name => draft.push (.reference binding name)
  | .beginExpression => draft.push (.expression "")
  | .expressionChar c => draft.expressionChar c
  | .hold => draft.hold
  | .heldChar c => draft.heldChar c
  | .release => draft.release.2
  | .hoist helper => draft.hoist helper
  | .trimText c => (draft.trimText? c).getD draft

def performAll (draft : Draft) (operations : List Operation) : Draft := operations.foldl perform draft

variable {draft next : Draft} {c : Char}

theorem normal_iff : draft.Normal ↔ Piece.Normal draft.recent := Piece.Normal.reverse_iff

namespace Normal

theorem of_recent (normal : draft.Normal) (same : next.recent = draft.recent) : next.Normal := by
  rw [normal_iff, same]
  exact normal_iff.1 normal

theorem push (normal : draft.Normal) {piece : Piece} (whole : piece.isRun = false) :
    (draft.push piece).Normal := by
  refine normal_iff.2 (Piece.Normal.cons_iff.2 ⟨?_, ?_, ?_, normal_iff.1 normal⟩)
  · rintro rfl
    exact Bool.noConfusion whole
  · rintro rfl
    exact Bool.noConfusion whole
  · exact fun next _ => Piece.merges_of_not_isRun whole next

theorem code (normal : draft.Normal) (text : String) : (draft.code text).Normal := by
  unfold Draft.code
  split
  · exact normal
  · next filled =>
    have filled : text ≠ "" := by simpa using filled
    rw [normal_iff] at normal ⊢
    split
    · next before older same =>
      rw [same] at normal
      exact normal.change (Piece.merges_code _ before) (by simp [filled]) Piece.noConfusion
    · next other =>
      refine Piece.Normal.cons_iff.2 ⟨by simpa using filled, Piece.noConfusion, ?_, normal⟩
      intro piece first
      obtain ⟨older, same⟩ := List.head?_eq_some_iff.1 first
      cases piece with
      | code before => exact (other before older same).elim
      | _ => rfl

theorem codeChar (normal : draft.Normal) (c : Char) : (draft.codeChar c).Normal := by
  rw [← code_singleton]
  exact normal.code _

theorem textChar (normal : draft.Normal) (c : Char) : (draft.textChar c).Normal := by
  unfold Draft.textChar
  rw [normal_iff] at normal ⊢
  split
  · next before older same =>
    rw [same] at normal
    exact normal.change (Piece.merges_text _ before) Piece.noConfusion (by simp)
  · next other =>
    refine Piece.Normal.cons_iff.2 ⟨Piece.noConfusion, by simp, ?_, normal⟩
    intro piece first
    obtain ⟨older, same⟩ := List.head?_eq_some_iff.1 first
    cases piece with
    | text before => exact (other before older same).elim
    | _ => rfl

theorem expressionChar (normal : draft.Normal) (c : Char) : (draft.expressionChar c).Normal := by
  unfold Draft.expressionChar
  split
  · next before older same =>
    rw [normal_iff, same] at normal
    exact normal_iff.2 (normal.change (fun _ => rfl) Piece.noConfusion Piece.noConfusion)
  · exact normal

/-- Text that is left without a character is removed, and what is before it is no text. -/
theorem trimText (normal : draft.Normal) (c : Char) : ((draft.trimText? c).getD draft).Normal := by
  cases trimmed : draft.trimText? c with
  | none => exact normal
  | some kept =>
    obtain ⟨content, older, recent, -⟩ := of_trimText? draft c trimmed
    obtain rfl := Option.some.inj (trimmed.symm.trans (trimText?_eq recent))
    rw [normal_iff, recent] at normal
    rw [Option.getD_some, normal_iff]
    split
    · exact (Piece.Normal.cons_iff.1 normal).2.2.2
    · next filled =>
      exact normal.change (Piece.merges_text _ _) Piece.noConfusion (by simpa using filled)

/-- No operation leaves normal form. -/
theorem perform (normal : draft.Normal) (operation : Operation) :
    (draft.perform operation).Normal := by
  cases operation with
  | code text => exact normal.code text
  | codeChar c => exact normal.codeChar c
  | textChar c => exact normal.textChar c
  | openLiteral | closeLiteral | lineBreak => exact normal.push rfl
  | call | reference | beginExpression => exact normal.push rfl
  | expressionChar c => exact normal.expressionChar c
  | hold | heldChar | release | hoist => exact normal.of_recent rfl
  | trimText c => exact normal.trimText c

theorem performAll (normal : draft.Normal) (operations : List Operation) :
    (draft.performAll operations).Normal := by
  induction operations generalizing draft with
  | nil => exact normal
  | cons operation operations ih => exact ih (normal.perform operation)

end Normal

theorem normal_ofCode (text : String) : (ofCode text).Normal := by
  have empty : Normal {} := Piece.Normal.nil
  exact empty.code text

/-- A character that is taken back right after it was written leaves no trace, unless it was written
after text without characters, which goes with it. -/
theorem trimText?_textChar_iff (draft : Draft) (c : Char) :
    (draft.textChar c).trimText? c = some draft ↔ ∀ older, draft.recent ≠ .text "" :: older := by
  unfold textChar
  split
  · next before older same =>
    rw [trimText?_eq rfl, same]
    by_cases empty : before = ""
    · subst empty
      refine iff_of_false (fun restored => ?_) (fun none => none older rfl)
      have recent := congrArg Draft.recent (Option.some.inj restored)
      rw [same, if_pos rfl] at recent
      exact List.ne_cons_self recent
    · rw [if_neg empty, ← same]
      refine iff_of_true rfl fun other recent => empty ?_
      exact Piece.text.inj (List.cons.inj (same.symm.trans recent)).1
  · next other =>
    have single : String.singleton c = "".push c := rfl
    refine iff_of_true ?_ fun older recent => other "" older recent
    rw [single, trimText?_eq rfl, if_pos rfl]

example : (({ recent := [.text ""] } : Draft).textChar 'a').trimText? 'a' = some {} := by decide

theorem Normal.trimText?_textChar (normal : draft.Normal) (c : Char) :
    (draft.textChar c).trimText? c = some draft := by
  refine (trimText?_textChar_iff draft c).2 fun older recent => ?_
  rw [normal_iff, recent] at normal
  exact normal.text_ne List.mem_cons_self

/-- Whatever is done with a draft, in any order, no statements or text in it are without characters, and
what could be one piece is one. So a character that is written as text can be taken back, and the draft
is what it was before. -/
theorem normal_of_operations (prologue : String) (operations : List Operation) :
    let draft := (ofCode prologue).performAll operations
    draft.Normal ∧ ∀ c, (draft.textChar c).trimText? c = some draft := by
  intro draft
  have normal : draft.Normal := (normal_ofCode prologue).performAll operations
  exact ⟨normal, normal.trimText?_textChar⟩

end Draft

end ScriptedMarkup
