import ScriptedMarkup.Proofs.Draft.Blocks

/-!
# Hoisted drafts

In a hoisted draft the helpers and the references belong together, and each helper is anchored to
the literal of its reference. It is enough that the references, with their literals, say so
(`Declares.hoisted`).
-/

namespace ScriptedMarkup

namespace Draft

/-- The helpers of a draft and its references belong together, one by one and in order: a helper
is anchored to the piece that opened the literal of its reference. -/
structure Hoisted (draft : Draft) : Prop where
  paired : draft.pieces.filterMap Piece.reference? = draft.helpers.map Helper.declared
  anchored : ∀ earlier helper later, draft.helpers = earlier ++ helper :: later →
    ∃ front inner back,
      draft.pieces =
        front ++ .openLiteral :: inner ++ .reference helper.binding helper.name :: back ∧
      front.length = helper.anchor ∧ Unbroken inner ∧
      (front ++ .openLiteral :: inner).filterMap Piece.reference? = earlier.map Helper.declared
  ordered : draft.helpers.Pairwise fun first second => first.anchor ≤ second.anchor

/-- A later draft has the helpers of an earlier one, and the pieces up to their anchors. -/
structure Keeps (draft later : Draft) : Prop where
  helpers : draft.helpers <+: later.helpers
  pieces : ∀ helper ∈ draft.helpers,
    later.pieces.take (helper.anchor + 1) = draft.pieces.take (helper.anchor + 1)

/-- What the references among pieces say about helpers, in order. -/
def Declares (recent : List Piece) (helpers : List Helper) : Prop :=
  references recent = (helpers.map fun helper => (some helper.anchor, helper.declared)).reverse

theorem references_ordered (recent : List Piece) :
    (references recent).Pairwise fun newer older =>
      ∀ anchor, newer.1 = some anchor → ∀ place, older.1 = some place → place ≤ anchor := by
  induction recent with
  | nil => exact List.Pairwise.nil
  | cons piece recent ih =>
    cases piece with
    | reference binding name =>
      refine List.pairwise_cons.2 ⟨?_, ih⟩
      intro ⟨older, declared⟩ member anchor opened place same
      have same : older = some place := same
      exact le_of_mem_references opened (same ▸ member)
    | _ => exact ih

theorem Declares.filterMap_reference? {recent : List Piece} {helpers : List Helper}
    (declares : Declares recent helpers) :
    recent.reverse.filterMap Piece.reference? = helpers.map Helper.declared := by
  rw [List.filterMap_reverse, filterMap_reference?_eq, declares, List.map_reverse,
    List.reverse_reverse, List.map_map]
  rfl

theorem Declares.hoisted {draft : Draft} (declares : Declares draft.recent draft.helpers) :
    draft.Hoisted := by
  refine ⟨declares.filterMap_reference?, ?_, ?_⟩
  · intro earlier helper later split
    have found : references draft.recent =
        (later.map fun helper => (some helper.anchor, helper.declared)).reverse ++
          (some helper.anchor, helper.binding, helper.name) ::
            (earlier.map fun helper => (some helper.anchor, helper.declared)).reverse := by
      rw [declares, split]
      simp [Helper.declared]
    obtain ⟨after, before, recent, opened, older⟩ := of_references found
    obtain ⟨inner, front, rfl, length, unbroken⟩ := of_openAt opened
    refine ⟨front.reverse, inner.reverse, after.reverse, ?_, ?_, ?_, ?_⟩
    · simp [pieces, recent]
    · rw [List.length_reverse, length]
    · exact fun piece member => unbroken piece (List.mem_reverse.1 member)
    · have within : Declares (inner ++ .openLiteral :: front) earlier := older
      simpa using within.filterMap_reference?
  · have ordered := references_ordered draft.recent
    rw [declares, List.pairwise_reverse, List.pairwise_map] at ordered
    exact ordered.imp fun {first second} le => le second.anchor rfl first.anchor rfl

/-- A literal that has been opened stays where it is. -/
def Holds (recent later : List Piece) : Prop :=
  ∀ before, .openLiteral :: before <:+ recent → .openLiteral :: before <:+ later

theorem keeps_of_holds {draft later : Draft} (declares : Declares draft.recent draft.helpers)
    (helpers : draft.helpers <+: later.helpers) (holds : Holds draft.recent later.recent) :
    draft.Keeps later := by
  refine ⟨helpers, ?_⟩
  intro helper member
  obtain ⟨earlier, more, split⟩ := List.append_of_mem member
  obtain ⟨front, inner, back, pieces, length, -, -⟩ := declares.hoisted.anchored _ _ _ split
  have recent : draft.recent =
      back.reverse ++ .reference helper.binding helper.name :: inner.reverse ++
        .openLiteral :: front.reverse := by
    rw [← List.reverse_reverse draft.recent, ← Draft.pieces, pieces]
    simp
  obtain ⟨newer, same⟩ := holds front.reverse ⟨_, recent.symm⟩
  have kept : later.pieces = front ++ .openLiteral :: newer.reverse := by
    rw [Draft.pieces, ← same]
    simp
  rw [kept, pieces, ← length]
  simp [List.take_append]

end Draft

end ScriptedMarkup
