import ScriptedMarkup.Proofs.Draft.Blocks

/-!
# Balanced drafts

A complete body is statements and literals (`Complete`). `Balanced` follows a draft piece by piece
and knows the literal that is open: what may be written next depends on nothing else.
-/

namespace ScriptedMarkup

/-- Whether a piece stands within a literal. -/
def Piece.isInner : Piece → Bool
  | text _ | expression _ | call _ | reference _ _ | lineBreak => true
  | code _ | openLiteral | closeLiteral => false

namespace Draft

/-- Statements and literals that are closed, in any order. -/
inductive Complete : List Piece → Prop
  | nil : Complete []
  | code {rest : List Piece} (statements : String) (complete : Complete rest) :
      Complete (.code statements :: rest)
  | literal {inner rest : List Piece} (within : ∀ piece ∈ inner, piece.isInner = true)
      (complete : Complete rest) : Complete (.openLiteral :: inner ++ .closeLiteral :: rest)

/-- A whole literal, with these pieces in it. -/
def literal (inner : List Piece) : List Piece := .openLiteral :: inner ++ [.closeLiteral]

/-- A complete part of a body, and then a literal that is not closed, opened by piece number
`anchor`. -/
def Unfinished (anchor : Nat) (pieces : List Piece) : Prop :=
  ∃ front inner, pieces = front ++ .openLiteral :: inner ∧ front.length = anchor ∧
    Complete front ∧ ∀ piece ∈ inner, piece.isInner = true

/-- The pieces of a draft in which this literal is open, or none. -/
def Shaped : Option Nat → List Piece → Prop
  | none, pieces => Complete pieces
  | some anchor, pieces => Unfinished anchor pieces

/-- The pieces, the last one first, that a draft can come to after a prologue, and the number of
the piece that opened the literal that is open there. -/
inductive Balanced (prologue : String) : Option Nat → List Piece → Prop
  | start (statements : String) : Balanced prologue none [.code (prologue ++ statements)]
  | code {recent : List Piece} (statements : String) (balanced : Balanced prologue none recent) :
      Balanced prologue none (.code statements :: recent)
  | opens {recent : List Piece} (balanced : Balanced prologue none recent) :
      Balanced prologue (some recent.length) (.openLiteral :: recent)
  | inner {recent : List Piece} {anchor : Nat} {piece : Piece} (within : piece.isInner = true)
      (balanced : Balanced prologue (some anchor) recent) :
      Balanced prologue (some anchor) (piece :: recent)
  | closes {recent : List Piece} {anchor : Nat}
      (balanced : Balanced prologue (some anchor) recent) :
      Balanced prologue none (.closeLiteral :: recent)

variable {prologue : String} {opened : Option Nat} {anchor : Nat} {recent first second : List Piece}

/-! ### The grammar of a body -/

theorem Complete.append (complete : Complete first) (more : Complete second) :
    Complete (first ++ second) := by
  induction complete with
  | nil => exact more
  | code statements _ ih => exact .code statements ih
  | literal within _ ih =>
    rw [List.append_assoc]
    exact .literal within ih

theorem Balanced.shaped (balanced : Balanced prologue opened recent) :
    Shaped opened recent.reverse := by
  induction balanced with
  | start statements => exact .code _ .nil
  | code statements _ ih =>
    rw [List.reverse_cons]
    exact Complete.append ih (.code statements .nil)
  | @opens recent _ ih => exact ⟨recent.reverse, [], by simp, List.length_reverse, ih, by simp⟩
  | @inner recent anchor piece within _ ih =>
    obtain ⟨front, inner, same, length, complete, inside⟩ := ih
    refine ⟨front, inner ++ [piece], by simp [same], length, complete, ?_⟩
    intro other member
    rcases List.mem_append.1 member with member | member
    · exact inside other member
    · rwa [List.mem_singleton.1 member]
  | closes _ ih =>
    obtain ⟨front, inner, same, -, complete, inside⟩ := ih
    rw [List.reverse_cons, same, List.append_assoc]
    exact complete.append (.literal inside .nil)

theorem unbroken_of_inner {inner : List Piece} (within : ∀ piece ∈ inner, piece.isInner = true) :
    Unbroken inner := by
  intro piece member
  have inside := within piece member
  constructor
  · rintro rfl
    exact absurd inside (by decide)
  · rintro rfl
    exact absurd inside (by decide)

/-- What stands between the ends of a literal in a complete body is the inside of a literal. -/
theorem Complete.within {pieces front inner back : List Piece} (complete : Complete pieces)
    (split : pieces = front ++ .openLiteral :: inner ++ .closeLiteral :: back)
    (unbroken : Unbroken inner) : ∀ piece ∈ inner, piece.isInner = true := by
  induction complete generalizing front with
  | nil => simp at split
  | code statements _ ih =>
    cases front with
    | nil => simp at split
    | cons first front => exact ih (List.cons.inj split).2
  | @literal other rest within _ ih =>
    simp only [List.append_assoc, List.cons_append] at split
    cases front with
    | nil =>
      -- It is the same literal, so it ends at the same piece.
      rcases List.append_eq_append_iff.1 (List.cons.inj split).2 with
        ⟨more, rfl, tail⟩ | ⟨more, rfl, -⟩
      · cases more with
        | nil => rwa [List.append_nil]
        | cons first more =>
          obtain ⟨rfl, -⟩ := List.cons.inj tail
          exact absurd rfl (unbroken _ (by simp)).2
      · exact fun piece member => within piece (List.mem_append_left _ member)
    | cons first front =>
      -- It is a later literal, as none opens within the first one.
      rcases List.append_eq_append_iff.1 (List.cons.inj split).2 with
        ⟨more, rfl, tail⟩ | ⟨more, rfl, tail⟩
      · cases more with
        | nil => exact absurd (List.cons.inj tail).1 (by simp)
        | cons first more =>
          refine @ih more ?_
          rw [List.append_assoc]
          exact (List.cons.inj tail).2
      · cases more with
        | nil => exact absurd (List.cons.inj tail).1 (by simp)
        | cons first more =>
          obtain ⟨rfl, -⟩ := List.cons.inj tail
          exact absurd (within .openLiteral (by simp)) (by decide)

theorem Complete.openAt_reverse {pieces : List Piece} (complete : Complete pieces)
    (before : List Piece) (ended : openAt before = none) :
    openAt (pieces.reverse ++ before) = none := by
  induction complete generalizing before with
  | nil => exact ended
  | code statements _ ih =>
    rw [List.reverse_cons, List.append_assoc]
    exact ih _ ended
  | literal _ _ ih =>
    simp only [List.reverse_append, List.reverse_cons, List.append_assoc]
    exact ih _ rfl

theorem Unfinished.openAt_reverse {pieces : List Piece} (unfinished : Unfinished anchor pieces) :
    openAt pieces.reverse = some anchor := by
  obtain ⟨front, inner, rfl, rfl, -, within⟩ := unfinished
  have unbroken : Unbroken inner.reverse := fun piece member =>
    unbroken_of_inner within piece (List.mem_reverse.1 member)
  simp only [List.reverse_append, List.reverse_cons, List.append_assoc]
  rw [openAt_append unbroken]
  exact congrArg some List.length_reverse

theorem Complete.not_unfinished {pieces : List Piece} (complete : Complete pieces) :
    ¬Unfinished anchor pieces := by
  intro unfinished
  have ended := complete.openAt_reverse [] rfl
  rw [List.append_nil, unfinished.openAt_reverse] at ended
  exact absurd ended (by simp)

theorem Balanced.starts (balanced : Balanced prologue opened recent) :
    ∃ statements before, recent = before ++ [.code (prologue ++ statements)] := by
  have further {recent : List Piece} (piece : Piece)
      (found : ∃ statements before, recent = before ++ [.code (prologue ++ statements)]) :
      ∃ statements before, piece :: recent = before ++ [.code (prologue ++ statements)] := by
    obtain ⟨statements, before, rfl⟩ := found
    exact ⟨statements, piece :: before, rfl⟩
  induction balanced with
  | start statements => exact ⟨statements, [], rfl⟩
  | code _ _ ih | opens _ ih | inner _ _ ih | closes _ ih => exact further _ ih

/-! ### Writing -/

section Writing

variable {draft : Draft} (c : Char)

theorem balanced_ofCode (shown : prologue ≠ "") :
    Balanced prologue none (Draft.ofCode prologue).recent := by
  have same : (Draft.ofCode prologue).recent = [.code (prologue ++ "")] := by
    simp [ofCode, code, shown]
  rw [same]
  exact .start ""

theorem Balanced.code_recent (balanced : Balanced prologue none draft.recent) (text : String) :
    Balanced prologue none (draft.code text).recent := by
  obtain ⟨recent, helpers, held⟩ := draft
  unfold Draft.code
  split
  · exact balanced
  cases balanced with
  | start statements =>
    have grown : Balanced prologue none [.code (prologue ++ (statements ++ text))] := .start _
    rwa [← String.append_assoc] at grown
  | code _ balanced => exact .code _ balanced
  | closes balanced => exact .code _ (.closes balanced)

theorem Balanced.codeChar (balanced : Balanced prologue none draft.recent) :
    Balanced prologue none (draft.codeChar c).recent := by
  rw [← code_singleton]
  exact balanced.code_recent _

theorem Balanced.textChar (balanced : Balanced prologue (some anchor) draft.recent) :
    Balanced prologue (some anchor) (draft.textChar c).recent := by
  obtain ⟨recent, helpers, held⟩ := draft
  unfold Draft.textChar
  split
  · next before older same =>
    obtain rfl : recent = .text before :: older := same
    cases balanced with
    | inner _ balanced => exact .inner rfl balanced
  · exact .inner rfl balanced

theorem Balanced.writeCall (balanced : Balanced prologue (some anchor) draft.recent)
    (call : AttributeCall) : Balanced prologue (some anchor) (draft.writeCall call).recent := by
  cases call with
  | pop name =>
    refine .inner rfl ?_
    cases trimmed : draft.trimText? '-' with
    | none => exact balanced
    | some kept =>
      obtain ⟨content, recent, same, -, -, rest⟩ := of_trimText? _ _ trimmed
      rw [same] at balanced
      rw [Option.getD_some]
      cases balanced with
      | inner _ balanced =>
        rcases rest with ⟨-, rest⟩ | rest
        · rwa [rest]
        · rw [rest]
          exact .inner rfl balanced
  | html name => exact .inner rfl balanced
  | all => exact .inner rfl balanced

theorem Balanced.expressionChar (balanced : Balanced prologue (some anchor) draft.recent) :
    Balanced prologue (some anchor) (draft.expressionChar c).recent := by
  obtain ⟨recent, helpers, held⟩ := draft
  unfold Draft.expressionChar
  split
  · next before older same =>
    obtain rfl : recent = .expression before :: older := same
    cases balanced with
    | inner _ balanced => exact .inner rfl balanced
  · exact balanced

end Writing

end Draft

end ScriptedMarkup
