import Mathlib.Data.List.Forall2
import ScriptedMarkup.Proofs.Draft.Congruence

/-!
# Drafts that differ in their numbers

Two supplies from which as many names were taken give out names that differ in their numbers alone.
Whatever is written to two drafts that differ in such names, and whatever is bound, they differ in
nothing else (`Draft.renumbering`).
-/

namespace ScriptedMarkup

/-- The same piece, or references to what was named alike after `before` and `after` names. -/
inductive Piece.Renumbered (before after : Nat) : Piece → Piece → Prop where
  | plain (piece : Piece) (unnamed : piece.reference? = none) : Renumbered before after piece piece
  | reference (binding : Binding) (i : Nat) :
      Renumbered before after (.reference binding (NameSupply.nameOf (before + (i + 1))))
        (.reference binding (NameSupply.nameOf (after + (i + 1))))

/-- The same helper, named alike after `before` and `after` names. -/
inductive Helper.Renumbered (before after : Nat) : Helper → Helper → Prop where
  | named (anchor : Nat) (binding : Binding) (i : Nat) (body : String) :
      Renumbered before after ⟨anchor, binding, NameSupply.nameOf (before + (i + 1)), body⟩
        ⟨anchor, binding, NameSupply.nameOf (after + (i + 1)), body⟩

/-- As many names were taken from both supplies, since there were `before` and `after` of them. -/
def NameSupply.Renumbered (before after : Nat) (names others : NameSupply) : Prop :=
  ∃ taken, names.issued = before + taken ∧ others.issued = after + taken

namespace Draft

variable {before after : Nat}

theorem top_renumbered {recent later : List Piece}
    (recents : List.Forall₂ (Piece.Renumbered before after) recent later) :
    Piece.Tops (List.Forall₂ (Piece.Renumbered before after)) recent later := by
  cases recents with
  | nil => exact .empty
  | cons piece rest =>
    cases piece with
    | plain => exact .same _ rest
    | reference => exact .reference _ _ _ _ _

theorem code_renumbered {first other : String} {recent later : List Piece}
    (recents : List.Forall₂ (Piece.Renumbered before after)
      (.code first :: recent) (.code other :: later)) (text : String) :
    List.Forall₂ (Piece.Renumbered before after)
      (.code (first ++ text) :: recent) (.code (other ++ text) :: later) := by
  obtain ⟨piece, rest⟩ := List.forall₂_cons.1 recents
  cases piece with
  | plain => exact .cons (.plain _ rfl) rest

theorem renumbering (before after : Nat) :
    Congruence (List.Forall₂ (Piece.Renumbered before after))
      (List.Forall₂ (Helper.Renumbered before after)) (NameSupply.Renumbered before after) where
  length recents := recents.length_eq.symm
  top := top_renumbered
  push recents piece unnamed := .cons (.plain piece unnamed) recents
  code := code_renumbered
  reference := by
    rintro recent later ⟨_⟩ ⟨_⟩ recents ⟨taken, rfl, rfl⟩ binding
    exact .cons (.reference binding taken) recents
  hoist := by
    rintro helpers later ⟨_⟩ ⟨_⟩ helpers ⟨taken, rfl, rfl⟩ anchor binding body
    exact List.rel_append helpers (.cons (.named anchor binding taken body) .nil)
  next := by
    rintro ⟨_⟩ ⟨_⟩ ⟨taken, rfl, rfl⟩
    exact ⟨taken + 1, rfl, rfl⟩

end Draft

end ScriptedMarkup
