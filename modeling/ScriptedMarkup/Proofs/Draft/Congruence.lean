import ScriptedMarkup.NameSupply
import ScriptedMarkup.Proofs.Draft.Basic
import ScriptedMarkup.Proofs.Draft.Blocks

/-!
# Related drafts

Writing looks at no more of a draft than its last piece, and then only at text, expressions and
statements. So a relation between lists of pieces that have the same last piece, or last ones that
are not looked at (`Piece.Tops`), is kept by all writing (`Draft.Congruence`).
-/

namespace ScriptedMarkup

/-- Pieces, the last one first, that are the same to whoever writes text or an expression. -/
inductive Piece.Tops (Recents : List Piece → List Piece → Prop) : List Piece → List Piece → Prop where
  | empty : Tops Recents [] []
  | same (piece : Piece) {recent later : List Piece} (rest : Recents recent later) :
      Tops Recents (piece :: recent) (piece :: later)
  | code (before other : String) (recent later : List Piece) :
      Tops Recents (.code before :: recent) (.code other :: later)
  | reference (binding : Binding) (name other : String) (recent later : List Piece) :
      Tops Recents (.reference binding name :: recent) (.reference binding other :: later)

namespace Draft

/-- Relations between pieces, between helpers and between supplies that are kept by writing, and by
binding with supplies that are related. -/
structure Congruence (Recents : List Piece → List Piece → Prop)
    (Helpers : List Helper → List Helper → Prop) (Supplies : NameSupply → NameSupply → Prop) :
    Prop where
  length : ∀ {recent later}, Recents recent later → later.length = recent.length
  top : ∀ {recent later}, Recents recent later → Piece.Tops Recents recent later
  push : ∀ {recent later}, Recents recent later → ∀ piece : Piece, piece.reference? = none →
    Recents (piece :: recent) (piece :: later)
  code : ∀ {before other recent later}, Recents (.code before :: recent) (.code other :: later) →
    ∀ text, Recents (.code (before ++ text) :: recent) (.code (other ++ text) :: later)
  reference : ∀ {recent later names others}, Recents recent later → Supplies names others →
    ∀ binding, Recents (.reference binding names.next.1 :: recent)
      (.reference binding others.next.1 :: later)
  hoist : ∀ {helpers later names others}, Helpers helpers later → Supplies names others →
    ∀ anchor binding body, Helpers (helpers ++ [⟨anchor, binding, names.next.1, body⟩])
      (later ++ [⟨anchor, binding, others.next.1, body⟩])
  next : ∀ {names others}, Supplies names others → Supplies names.next.2 others.next.2

/-- Drafts that hold the same text, with related pieces and helpers. -/
structure Related (Recents : List Piece → List Piece → Prop)
    (Helpers : List Helper → List Helper → Prop) (draft later : Draft) : Prop where
  recent : Recents draft.recent later.recent
  helpers : Helpers draft.helpers later.helpers
  held : later.held = draft.held

namespace Related

variable {Recents : List Piece → List Piece → Prop} {Helpers : List Helper → List Helper → Prop}
  {Supplies : NameSupply → NameSupply → Prop} {draft later : Draft}

theorem hold (related : Related Recents Helpers draft later) :
    Related Recents Helpers draft.hold later.hold :=
  { related with held := rfl }

theorem heldChar (related : Related Recents Helpers draft later) (c : Char) :
    Related Recents Helpers (draft.heldChar c) (later.heldChar c) :=
  { related with held := congrArg (Option.map _) related.held }

theorem release (related : Related Recents Helpers draft later) :
    Related Recents Helpers draft.release.2 later.release.2 :=
  { related with held := rfl }

variable (congruence : Draft.Congruence Recents Helpers Supplies)

include congruence

theorem size (related : Related Recents Helpers draft later) : later.size = draft.size :=
  congruence.length related.recent

theorem push (related : Related Recents Helpers draft later) (piece : Piece)
    (plain : piece.reference? = none) :
    Related Recents Helpers (draft.push piece) (later.push piece) :=
  { related with recent := congruence.push related.recent piece plain }

theorem code (related : Related Recents Helpers draft later) (text : String) :
    Related Recents Helpers (draft.code text) (later.code text) := by
  obtain ⟨recent, helpers, held⟩ := draft
  obtain ⟨laters, laterHelpers, _⟩ := later
  obtain ⟨recents, helpers, rfl⟩ := related
  unfold Draft.code
  split
  · exact ⟨recents, helpers, rfl⟩
  · have pushed := congruence.push recents (.code text) rfl
    cases congruence.top recents with
    | empty => exact ⟨pushed, helpers, rfl⟩
    | same piece rest =>
      cases piece with
      | code before => exact ⟨congruence.code recents text, helpers, rfl⟩
      | _ => exact ⟨pushed, helpers, rfl⟩
    | code before other => exact ⟨congruence.code recents text, helpers, rfl⟩
    | reference => exact ⟨pushed, helpers, rfl⟩

theorem codeChar (related : Related Recents Helpers draft later) (c : Char) :
    Related Recents Helpers (draft.codeChar c) (later.codeChar c) := by
  rw [← code_singleton, ← code_singleton]
  exact related.code congruence (String.singleton c)

theorem textChar (related : Related Recents Helpers draft later) (c : Char) :
    Related Recents Helpers (draft.textChar c) (later.textChar c) := by
  obtain ⟨recent, helpers, held⟩ := draft
  obtain ⟨laters, laterHelpers, _⟩ := later
  obtain ⟨recents, helpers, rfl⟩ := related
  have pushed := congruence.push recents (.text (String.singleton c)) rfl
  cases congruence.top recents with
  | same piece rest =>
    cases piece with
    | text before => exact ⟨congruence.push rest (.text (before.push c)) rfl, helpers, rfl⟩
    | _ => exact ⟨pushed, helpers, rfl⟩
  | _ => exact ⟨pushed, helpers, rfl⟩

theorem expressionChar (related : Related Recents Helpers draft later) (c : Char) :
    Related Recents Helpers (draft.expressionChar c) (later.expressionChar c) := by
  obtain ⟨recent, helpers, held⟩ := draft
  obtain ⟨laters, laterHelpers, _⟩ := later
  obtain ⟨recents, helpers, rfl⟩ := related
  cases congruence.top recents with
  | same piece rest =>
    cases piece with
    | expression before =>
      exact ⟨congruence.push rest (.expression (before.push c)) rfl, helpers, rfl⟩
    | _ => exact ⟨recents, helpers, rfl⟩
  | _ => exact ⟨recents, helpers, rfl⟩

theorem trimText? (related : Related Recents Helpers draft later) (c : Char) :
    Related Recents Helpers ((draft.trimText? c).getD draft) ((later.trimText? c).getD later) := by
  obtain ⟨recent, helpers, held⟩ := draft
  obtain ⟨laters, laterHelpers, _⟩ := later
  obtain ⟨recents, helpers, rfl⟩ := related
  cases congruence.top recents with
  | same piece rest =>
    cases piece with
    | text content =>
      unfold Draft.trimText?
      simp only
      split
      · split
        · exact ⟨rest, helpers, rfl⟩
        · exact ⟨congruence.push rest _ rfl, helpers, rfl⟩
      · exact ⟨recents, helpers, rfl⟩
    | _ => exact ⟨recents, helpers, rfl⟩
  | _ => exact ⟨recents, helpers, rfl⟩

theorem writeCall (related : Related Recents Helpers draft later) (call : AttributeCall) :
    Related Recents Helpers (draft.writeCall call) (later.writeCall call) := by
  cases call with
  | pop name => exact (related.trimText? congruence '-').push congruence _ rfl
  | html name => exact related.push congruence _ rfl
  | all => exact related.push congruence _ rfl

/-- Binds what is held to the next name of either supply. -/
theorem bind (related : Related Recents Helpers draft later) {names others : NameSupply}
    (supplies : Supplies names others) (anchor : Nat) (binding : Binding) :
    Related Recents Helpers
      ((draft.release.2.hoist ⟨anchor, binding, names.next.1, draft.release.1⟩).push
        (.reference binding names.next.1))
      ((later.release.2.hoist ⟨anchor, binding, others.next.1, later.release.1⟩).push
        (.reference binding others.next.1)) := by
  have released : later.release.1 = draft.release.1 := congrArg (Option.getD · "") related.held
  rw [released]
  exact ⟨congruence.reference related.recent supplies binding,
    congruence.hoist related.helpers supplies anchor binding _, rfl⟩

end Related

end Draft

end ScriptedMarkup
