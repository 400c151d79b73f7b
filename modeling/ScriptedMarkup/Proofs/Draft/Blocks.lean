import ScriptedMarkup.Proofs.Draft.Basic

/-!
# Literals and references

`openAt` finds the literal that is open after pieces, and `references` the literal that each
reference stands in. Both take the pieces with the last one first, and see only those that open a
literal, close one or refer: what is written between them (`settled`) does not matter.
-/

namespace ScriptedMarkup

namespace Piece

/-- Whether a piece neither opens nor closes a literal, nor refers to a helper. -/
def isPlain : Piece → Bool
  | openLiteral | closeLiteral | reference _ _ => false
  | _ => true

/-- What a piece refers to. -/
def reference? : Piece → Option (Binding × String)
  | reference binding name => some (binding, name)
  | _ => none

end Piece

/-- What a helper declares. -/
def Helper.declared (helper : Helper) : Binding × String := (helper.binding, helper.name)

namespace Draft

/-- The number of the piece that opened the literal that is open after these pieces. -/
def openAt : List Piece → Option Nat
  | [] => none
  | .openLiteral :: recent => some recent.length
  | .closeLiteral :: _ => none
  | _ :: recent => openAt recent

/-- The references, each with the number of the piece that opened its literal. -/
def references : List Piece → List (Option Nat × Binding × String)
  | [] => []
  | .reference binding name :: recent => (openAt recent, binding, name) :: references recent
  | _ :: recent => references recent

/-- The last piece is statements that end a line. -/
def EndsLine (recent : List Piece) : Prop :=
  ∃ statements before, recent = .code (statements ++ "\n") :: before

/-- No literal opens or closes among these pieces. -/
def Unbroken (pieces : List Piece) : Prop :=
  ∀ piece ∈ pieces, piece ≠ .openLiteral ∧ piece ≠ .closeLiteral

/-- Every literal opens at the start of a line, outside of other literals. -/
def Apart (recent : List Piece) : Prop :=
  ∀ before, .openLiteral :: before <:+ recent → openAt before = none ∧ EndsLine before

variable {recent base top : List Piece} {anchor : Nat}

/-! ### Open literals -/

theorem openAt_append (unbroken : Unbroken top) : openAt (top ++ base) = openAt base := by
  induction top with
  | nil => rfl
  | cons piece top ih =>
    have rest : Unbroken top := fun other member => unbroken other (List.mem_cons_of_mem _ member)
    have ⟨notOpen, notClose⟩ := unbroken piece List.mem_cons_self
    cases piece with
    | openLiteral => exact absurd rfl notOpen
    | closeLiteral => exact absurd rfl notClose
    | _ => exact ih rest

theorem of_openAt (opened : openAt recent = some anchor) :
    ∃ inner before, recent = inner ++ .openLiteral :: before ∧ before.length = anchor ∧
      Unbroken inner := by
  induction recent with
  | nil => simp [openAt] at opened
  | cons piece recent ih =>
    have further (other : piece ≠ .openLiteral ∧ piece ≠ .closeLiteral)
        (same : openAt recent = some anchor) :
        ∃ inner before, piece :: recent = inner ++ .openLiteral :: before ∧
          before.length = anchor ∧ Unbroken inner := by
      obtain ⟨inner, before, rfl, length, unbroken⟩ := ih same
      exact ⟨piece :: inner, before, rfl, length, List.forall_mem_cons.2 ⟨other, unbroken⟩⟩
    cases piece with
    | openLiteral => exact ⟨[], recent, rfl, Option.some.inj opened, by simp [Unbroken]⟩
    | closeLiteral => simp [openAt] at opened
    | _ => exact further (by simp) opened

theorem lt_length_of_openAt (opened : openAt recent = some anchor) : anchor < recent.length := by
  obtain ⟨inner, before, rfl, rfl, -⟩ := of_openAt opened
  simp only [List.length_append, List.length_cons]
  omega

theorem closes_of_openAt (apart : Apart (top ++ base)) (opened : openAt base = some anchor)
    (ended : openAt (top ++ base) = none) :
    ∃ after inner, top = after ++ .closeLiteral :: inner ∧ Unbroken inner := by
  suffices Unbroken top ∨ ∃ after inner, top = after ++ .closeLiteral :: inner ∧ Unbroken inner by
    refine this.resolve_left fun unbroken => ?_
    rw [openAt_append unbroken, opened] at ended
    exact absurd ended (by simp)
  clear ended
  induction top with
  | nil => exact .inl (by simp [Unbroken])
  | cons piece top ih =>
    rcases ih fun before suffix => apart before (suffix.trans (List.suffix_cons _ _)) with
      unbroken | ⟨after, inner, rfl, unbroken⟩
    · cases piece with
      | openLiteral =>
        have ⟨ended, _⟩ := apart (top ++ base) (List.suffix_refl _)
        rw [openAt_append unbroken, opened] at ended
        exact absurd ended (by simp)
      | closeLiteral => exact .inr ⟨[], top, rfl, unbroken⟩
      | _ => exact .inl (List.forall_mem_cons.2 ⟨by simp, unbroken⟩)
    · exact .inr ⟨piece :: after, inner, rfl, unbroken⟩

/-! ### References -/

theorem filterMap_reference?_eq (recent : List Piece) :
    recent.filterMap Piece.reference? = (references recent).map (·.2) := by
  induction recent with
  | nil => rfl
  | cons piece recent ih =>
    cases piece with
    | reference => exact congrArg _ ih
    | _ => exact ih

theorem of_references {newer older : List (Option Nat × Binding × String)} {place : Option Nat}
    {binding : Binding} {name : String}
    (split : references recent = newer ++ (place, binding, name) :: older) :
    ∃ after before, recent = after ++ .reference binding name :: before ∧ openAt before = place ∧
      references before = older := by
  induction recent generalizing newer with
  | nil => simp [references] at split
  | cons piece recent ih =>
    have further (same : references recent = newer ++ (place, binding, name) :: older) :
        ∃ after before, piece :: recent = after ++ .reference binding name :: before ∧
          openAt before = place ∧ references before = older := by
      obtain ⟨after, before, rfl, found⟩ := ih same
      exact ⟨piece :: after, before, rfl, found⟩
    cases piece with
    | reference =>
      cases newer with
      | nil =>
        obtain ⟨same, rest⟩ := List.cons.inj split
        obtain ⟨opened, same⟩ := Prod.mk.inj same
        obtain ⟨rfl, rfl⟩ := Prod.mk.inj same
        exact ⟨[], recent, rfl, opened, rest⟩
      | cons first newer =>
        obtain ⟨after, before, rfl, found⟩ := ih (List.cons.inj split).2
        exact ⟨_ :: after, before, rfl, found⟩
    | _ => exact further split

theorem lt_length_of_mem_references {place : Nat} {declared : Binding × String}
    (member : (some place, declared) ∈ references recent) : place < recent.length := by
  obtain ⟨newer, older, split⟩ := List.append_of_mem member
  obtain ⟨after, before, rfl, opened, -⟩ := of_references split
  have := lt_length_of_openAt opened
  simp only [List.length_append, List.length_cons]
  omega

theorem le_of_mem_references {place : Nat} {declared : Binding × String}
    (opened : openAt recent = some anchor)
    (member : (some place, declared) ∈ references recent) : place ≤ anchor := by
  induction recent with
  | nil => simp [references] at member
  | cons piece recent ih =>
    cases piece with
    | openLiteral =>
      rw [← Option.some.inj opened]
      exact Nat.le_of_lt (lt_length_of_mem_references (by exact member))
    | closeLiteral => simp [openAt] at opened
    | reference =>
      rcases List.mem_cons.1 member with same | member
      · have same := (Prod.mk.inj same).1.trans opened
        exact Nat.le_of_eq (Option.some.inj same)
      · exact ih opened member
    | _ => exact ih opened member

/-! ### What is written between them -/

/-- The pieces up to the last one that opens or closes a literal, or refers. -/
def settled (draft : Draft) : List Piece := draft.recent.dropWhile Piece.isPlain

theorem openAt_dropWhile (recent : List Piece) :
    openAt (recent.dropWhile Piece.isPlain) = openAt recent := by
  induction recent with
  | nil => rfl
  | cons piece recent ih =>
    cases piece with
    | openLiteral | closeLiteral | reference => rfl
    | _ => exact ih

theorem references_dropWhile (recent : List Piece) :
    references (recent.dropWhile Piece.isPlain) = references recent := by
  induction recent with
  | nil => rfl
  | cons piece recent ih =>
    cases piece with
    | openLiteral | closeLiteral | reference => rfl
    | _ => exact ih

theorem suffix_dropWhile (before recent : List Piece) :
    .openLiteral :: before <:+ recent.dropWhile Piece.isPlain ↔ .openLiteral :: before <:+ recent := by
  induction recent with
  | nil => rfl
  | cons piece recent ih =>
    cases piece with
    | openLiteral | closeLiteral | reference => exact Iff.rfl
    | _ =>
      rw [List.suffix_cons_iff]
      exact ih.trans (by simp)

theorem openAt_of_settled {draft : Draft} (settled : draft.settled = recent) :
    openAt draft.recent = openAt recent := by
  rw [← settled]
  exact (openAt_dropWhile draft.recent).symm

theorem references_of_settled {draft : Draft} (settled : draft.settled = recent) :
    references draft.recent = references recent := by
  rw [← settled]
  exact (references_dropWhile draft.recent).symm

theorem suffix_of_settled {draft : Draft} {before : List Piece} (settled : draft.settled = recent) :
    .openLiteral :: before <:+ draft.recent ↔ .openLiteral :: before <:+ recent := by
  rw [← settled]
  exact (suffix_dropWhile before draft.recent).symm

theorem Apart.cons {piece : Piece} {recent : List Piece} (apart : Apart recent)
    (opening : piece = .openLiteral → openAt recent = none ∧ EndsLine recent) :
    Apart (piece :: recent) := by
  intro before suffix
  rcases List.suffix_cons_iff.1 suffix with same | older
  · obtain ⟨rfl, rfl⟩ := List.cons.inj same
    exact opening rfl
  · exact apart before older

theorem Apart.dropWhile {recent : List Piece} (apart : Apart recent) :
    Apart (recent.dropWhile Piece.isPlain) :=
  fun before suffix => apart before ((suffix_dropWhile before recent).1 suffix)

theorem Apart.of_settled {draft : Draft} {recent : List Piece} (settled : draft.settled = recent)
    (apart : Apart recent) : Apart draft.recent :=
  fun before suffix => apart before ((suffix_of_settled settled).1 suffix)

section Writing

variable (draft : Draft) (c : Char)

theorem settled_push {piece : Piece} (plain : piece.isPlain = true) :
    (draft.push piece).settled = draft.settled := by
  simp [settled, push, plain]

theorem settled_push_of_not {piece : Piece} (notPlain : piece.isPlain = false) :
    (draft.push piece).settled = piece :: draft.recent := by
  simp [settled, push, notPlain]

@[simp]
theorem settled_code (text : String) : (draft.code text).settled = draft.settled := by
  obtain ⟨recent, helpers, held⟩ := draft
  unfold code
  split
  · rfl
  · cases recent with
    | nil => rfl
    | cons piece recent => cases piece <;> rfl

@[simp]
theorem settled_codeChar : (draft.codeChar c).settled = draft.settled := by
  rw [← code_singleton, settled_code]

@[simp]
theorem settled_textChar : (draft.textChar c).settled = draft.settled := by
  obtain ⟨recent, helpers, held⟩ := draft
  cases recent with
  | nil => rfl
  | cons piece recent => cases piece <;> rfl

@[simp]
theorem settled_expressionChar : (draft.expressionChar c).settled = draft.settled := by
  obtain ⟨recent, helpers, held⟩ := draft
  cases recent with
  | nil => rfl
  | cons piece recent => cases piece <;> rfl

@[simp]
theorem settled_heldChar : (draft.heldChar c).settled = draft.settled := rfl

@[simp]
theorem settled_writeCall (call : AttributeCall) :
    (draft.writeCall call).settled = draft.settled := by
  cases call with
  | pop name =>
    rw [writeCall, settled_push _ rfl]
    cases trimmed : draft.trimText? '-' with
    | none => rfl
    | some kept =>
      obtain ⟨content, recent, same, -, -, rest⟩ := of_trimText? _ _ trimmed
      rw [Option.getD_some, settled, settled, same]
      rcases rest with ⟨-, rest⟩ | rest <;> (rw [rest]; rfl)
  | _ => rfl

end Writing

theorem endsLine_codeChar (draft : Draft) : EndsLine (draft.codeChar '\n').recent := by
  obtain ⟨recent, helpers, held⟩ := draft
  cases recent with
  | nil => exact ⟨"", [], rfl⟩
  | cons piece recent =>
    cases piece with
    | code before => exact ⟨before, recent, by simp [codeChar, ← String.append_singleton]⟩
    | _ => exact ⟨"", _, rfl⟩

end Draft

end ScriptedMarkup
