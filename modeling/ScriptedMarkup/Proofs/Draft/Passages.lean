import ScriptedMarkup.Proofs.Draft.Balanced
import ScriptedMarkup.Proofs.Draft.Layout

/-!
# Passages

The parts of a complete body are statements, and literals that come right after the declarations
anchored to them (`Hoisted.laid`). No declaration stands anywhere else.
-/

namespace ScriptedMarkup.Draft

/-- Statements, and literals each with its declarations before it, in any order. -/
inductive Laid : List Part → Prop
  | nil : Laid []
  | code {rest : List Part} (statements : String) (laid : Laid rest) :
      Laid (.written (.code statements) :: rest)
  | literal {inner : List Piece} {rest : List Part} (helpers : List Helper)
      (within : ∀ piece ∈ inner, piece.isInner = true) (laid : Laid rest) :
      Laid (helpers.map .declared ++ ((literal inner).map .written ++ rest))

/-- Every helper is anchored to a piece that opens a literal, of pieces numbered from `index`. -/
def AnchorsOpen (index : Nat) (pieces : List Piece) (helpers : List Helper) : Prop :=
  ∀ helper ∈ helpers, pieces[helper.anchor - index]? = some .openLiteral

variable {index : Nat} {helpers : List Helper} {draft : Draft}

theorem layout_code {statements : String} {rest : List Piece}
    (anchored : Anchored index (index + (rest.length + 1)) helpers)
    (opens : AnchorsOpen index (.code statements :: rest) helpers) :
    layout index (.code statements :: rest) helpers =
        .written (.code statements) :: layout (index + 1) rest helpers ∧
      Anchored (index + 1) (index + 1 + rest.length) helpers ∧
      AnchorsOpen (index + 1) rest helpers := by
  have past : ∀ helper ∈ helpers, index + 1 ≤ helper.anchor := by
    intro helper member
    have lower := (anchored.within helper member).1
    rcases Nat.eq_or_lt_of_le lower with here | past
    · have found := opens helper member
      rw [← here, Nat.sub_self] at found
      exact absurd found (by simp)
    · exact past
  have written : layout index ([.code statements] ++ rest) helpers = _ := layout_append past
  refine ⟨written, ⟨anchored.ordered, ?_⟩, ?_⟩
  · intro helper member
    have upper := (anchored.within helper member).2
    exact ⟨past helper member, by omega⟩
  · intro helper member
    have found := opens helper member
    have lower := past helper member
    rwa [show helper.anchor - index = helper.anchor - (index + 1) + 1 by omega,
      List.getElem?_cons_succ] at found

theorem layout_literal {inner rest : List Piece} (unbroken : Unbroken inner)
    (anchored : Anchored index (index + (inner.length + rest.length + 2)) helpers)
    (opens : AnchorsOpen index (.openLiteral :: inner ++ .closeLiteral :: rest) helpers) :
    ∃ due later : List Helper,
      layout index (.openLiteral :: inner ++ .closeLiteral :: rest) helpers =
          due.map .declared ++ ((literal inner).map .written ++
            layout (index + (inner.length + 2)) rest later) ∧
        Anchored (index + (inner.length + 2)) (index + (inner.length + 2) + rest.length) later ∧
        AnchorsOpen (index + (inner.length + 2)) rest later := by
  have later := anchored.rest
  have further : ∀ helper ∈ helpers.dropWhile (·.anchor ≤ index),
      index + (inner.length + 2) ≤ helper.anchor := by
    intro helper member
    have past := (later.within helper member).1
    have found := opens helper ((List.dropWhile_suffix _).subset member)
    have found : ([] ++ .openLiteral :: inner ++ .closeLiteral :: rest)[helper.anchor - index]? =
        some .openLiteral := found
    have beyond := le_of_opens unbroken found (by simp only [List.length_nil]; omega)
    simp only [List.length_append, List.length_cons, List.length_nil] at beyond
    omega
  refine ⟨helpers.takeWhile (·.anchor ≤ index), helpers.dropWhile (·.anchor ≤ index), ?_, ?_, ?_⟩
  · have past : ∀ helper ∈ helpers.dropWhile (·.anchor ≤ index),
        index + 1 + (inner ++ [Piece.closeLiteral]).length ≤ helper.anchor := by
      intro helper member
      have := further helper member
      simp only [List.length_append, List.length_cons, List.length_nil]
      omega
    have written : layout (index + 1) ((inner ++ [.closeLiteral]) ++ rest)
        (helpers.dropWhile (·.anchor ≤ index)) = _ := layout_append past
    rw [List.append_assoc, List.length_append, List.length_singleton] at written
    rw [List.cons_append, layout]
    rw [show index + (inner.length + 2) = index + 1 + (inner.length + 1) by omega]
    exact congrArg _ (congrArg (_ :: ·) written)
  · refine ⟨later.ordered, ?_⟩
    intro helper member
    have upper := (later.within helper member).2
    exact ⟨further helper member, by omega⟩
  · intro helper member
    have found := opens helper ((List.dropWhile_suffix _).subset member)
    have past := further helper member
    rw [List.append_cons, List.getElem?_append_right (by
      simp only [List.length_append, List.length_cons, List.length_nil]
      omega)] at found
    simp only [List.length_append, List.length_cons, List.length_nil] at found
    rwa [show helper.anchor - (index + (inner.length + 2)) =
      helper.anchor - index - (inner.length + 1 + (0 + 1)) by omega]

theorem Complete.laid {pieces : List Piece} (complete : Complete pieces)
    (anchored : Anchored index (index + pieces.length) helpers)
    (opens : AnchorsOpen index pieces helpers) : Laid (layout index pieces helpers) := by
  -- The helpers are those that are still due, so none is left when the pieces are.
  induction complete generalizing index helpers with
  | nil =>
    cases helpers with
    | nil => exact .nil
    | cons helper helpers => exact absurd (opens helper List.mem_cons_self) (by simp)
  | code statements _ ih =>
    obtain ⟨same, anchored, opens⟩ := layout_code anchored opens
    rw [same]
    exact .code statements (ih anchored opens)
  | @literal inner rest within _ ih =>
    have length : (Piece.openLiteral :: inner ++ .closeLiteral :: rest).length =
        inner.length + rest.length + 2 := by
      simp only [List.length_append, List.length_cons]
      omega
    rw [length] at anchored
    obtain ⟨due, later, same, anchored, opens⟩ :=
      layout_literal (unbroken_of_inner within) anchored opens
    rw [same]
    exact .literal due within (ih anchored opens)

theorem Hoisted.laid (hoisted : draft.Hoisted) (complete : Complete draft.pieces) :
    Laid draft.parts := by
  rw [hoisted.parts_eq]
  refine complete.laid hoisted.anchored_helpers ?_
  intro helper member
  obtain ⟨earlier, later, split⟩ := List.append_of_mem member
  obtain ⟨front, inner, back, same, length, -⟩ := hoisted.anchored _ _ _ split
  rw [same, Nat.sub_zero, ← length]
  simp

end ScriptedMarkup.Draft
