import ScriptedMarkup.Body
import ScriptedMarkup.Proofs.Draft.Layout
import ScriptedMarkup.Proofs.Scan.Congruence

/-!
# Statements put in front

`Draft.Leads added` relates a draft to one that has the statements `added` after the prologue, and
nothing else that differs. This is kept by writing (`Draft.leading`), so a scan does the same on both
(`Scan.Leads.run`), and in the end the texts differ by what is added (`Draft.Leads.render`).
-/

namespace ScriptedMarkup

/-- Pieces, the last one first, whose first statements differ by what comes after the prologue. -/
inductive Piece.Leads (added : String) : List Piece → List Piece → Prop where
  | first (statements : String) :
      Leads added [.code (Body.prologue ++ statements)]
        [.code (Body.prologue ++ added ++ statements)]
  | push (piece : Piece) {recent later : List Piece} (leads : Leads added recent later) :
      Leads added (piece :: recent) (piece :: later)

theorem Piece.Leads.length {added : String} {recent later : List Piece}
    (leads : Leads added recent later) : later.length = recent.length := by
  induction leads with
  | first => rfl
  | push _ _ ih => rw [List.length_cons, List.length_cons, ih]

theorem Piece.Leads.exists_reverse {added : String} {recent later : List Piece}
    (leads : Leads added recent later) :
    ∃ statements pieces, recent.reverse = .code (Body.prologue ++ statements) :: pieces ∧
      later.reverse = .code (Body.prologue ++ added ++ statements) :: pieces := by
  induction leads with
  | first statements => exact ⟨statements, [], rfl, rfl⟩
  | push piece _ ih =>
    obtain ⟨statements, pieces, front, laterFront⟩ := ih
    refine ⟨statements, pieces ++ [piece], ?_, ?_⟩
    · rw [List.reverse_cons, front]
      rfl
    · rw [List.reverse_cons, laterFront]
      rfl

namespace Draft

theorem weave_past {index : Nat} {helpers : List Helper}
    (past : ∀ helper ∈ helpers, index < helper.anchor) (piece : Piece) (pieces : List Piece) :
    weave index (piece :: pieces) helpers = piece.render :: weave (index + 1) pieces helpers := by
  cases helpers with
  | nil => rfl
  | cons helper helpers =>
    have further : index < helper.anchor := past helper List.mem_cons_self
    rw [weave, List.takeWhile_cons_of_neg (by simpa using further),
      List.dropWhile_cons_of_neg (by simpa using further)]
    rfl

theorem leading (added : String) :
    Congruence (Piece.Leads added) (fun helpers later => later = helpers)
      (fun names others => others = names) where
  length leads := leads.length
  top leads := by
    cases leads with
    | first statements => exact .code _ _ _ _
    | push piece rest => exact .same piece rest
  push leads piece _ := leads.push piece
  code leads text := by
    cases leads with
    | first statements =>
      rw [String.append_assoc, String.append_assoc]
      exact .first (statements ++ text)
    | push piece rest => exact rest.push _
  reference := by
    rintro recent later names _ leads rfl binding
    exact leads.push _
  hoist := by
    rintro helpers _ names _ rfl rfl anchor binding body
    rfl
  next same := congrArg (·.next.2) same

structure Leads (added : String) (draft later : Draft) : Prop where
  recent : Piece.Leads added draft.recent later.recent
  helpers : later.helpers = draft.helpers
  held : later.held = draft.held

namespace Leads

variable {added : String} {draft later : Draft}

/-- No helper stands before the first statements, so these are where the texts differ. -/
theorem render (leads : Leads added draft later) (hoisted : draft.Hoisted) :
    ∃ rest, draft.render = Body.prologue ++ rest ∧
      later.render = Body.prologue ++ added ++ rest := by
  obtain ⟨statements, pieces, front, laterFront⟩ := leads.recent.exists_reverse
  have past : ∀ helper ∈ draft.helpers, 0 < helper.anchor := by
    intro helper member
    obtain ⟨earlier, more, split⟩ := List.append_of_mem member
    obtain ⟨before, inner, back, same, length, -, -⟩ := hoisted.anchored _ _ _ split
    rw [Draft.pieces, front] at same
    cases before with
    | nil => exact absurd (List.cons.inj same).1 (by simp)
    | cons first before =>
      rw [← length, List.length_cons]
      omega
  have woven (text : String) :
      weave 0 (.code text :: pieces) draft.helpers = text :: weave 1 pieces draft.helpers :=
    weave_past past _ pieces
  have sorted := sort_eq_self hoisted.ordered
  refine ⟨statements ++ String.join (weave 1 pieces draft.helpers), ?_, ?_⟩
  · rw [Draft.render, Draft.pieces, front, sorted, woven, String.join_cons, String.append_assoc]
  · rw [Draft.render, Draft.pieces, laterFront, leads.helpers, sorted, woven, String.join_cons]
    simp only [String.append_assoc]

end Leads

end Draft

namespace Scan

/-- Scans that are in the same state, the one of a draft with more in front. -/
structure Leads (added : String) (scan later : Scan) : Prop where
  lexing : later.lexing = scan.lexing
  names : later.names = scan.names
  draft : Draft.Leads added scan.draft later.draft

namespace Leads

variable {added : String} {scan later : Scan}

theorem related (leads : Leads added scan later) :
    Related (Piece.Leads added) (fun helpers later => later = helpers)
      (fun names others => others = names) scan later :=
  ⟨leads.lexing, ⟨leads.draft.recent, leads.draft.helpers, leads.draft.held⟩, leads.names⟩

theorem run (leads : Leads added scan later) (signals : List Signal) :
    Leads added (scan.run signals) (later.run signals) := by
  obtain ⟨lexing, ⟨recent, helpers, held⟩, names⟩ :=
    leads.related.run (Draft.leading added) signals
  exact ⟨lexing, names, recent, helpers, held⟩

theorem finish (leads : Leads added scan later) :
    Draft.Leads added (Body.finish scan) (Body.finish later) := by
  obtain ⟨recent, helpers, held⟩ := leads.related.finish (Draft.leading added)
  exact ⟨recent, helpers, held⟩

end Leads

end Scan

end ScriptedMarkup
