import ScriptedMarkup.Proofs.Draft.Renumbering
import ScriptedMarkup.Proofs.Scan.Congruence
import ScriptedMarkup.Proofs.Session.Failures

/-!
# Answers of one session in another

Whatever a workbench was used for before, all that shows in an answer is how many names were given
out (`Workbench.answer_renumbered`). An answer is the one of a fresh session but for the numbers in
its names.
-/

namespace ScriptedMarkup

namespace Body

variable (names others : NameSupply) (source : String)

theorem scan_renumbered :
    Scan.Related (List.Forall₂ (Piece.Renumbered names.issued others.issued))
      (List.Forall₂ (Helper.Renumbered names.issued others.issued))
      (NameSupply.Renumbered names.issued others.issued) (scan names source)
      (scan others source) := by
  have started : Scan.Related (List.Forall₂ (Piece.Renumbered names.issued others.issued))
      (List.Forall₂ (Helper.Renumbered names.issued others.issued))
      (NameSupply.Renumbered names.issued others.issued) (start names) (start others) :=
    ⟨rfl, ⟨.cons (.plain _ rfl) .nil, .nil, rfl⟩, 0, rfl, rfl⟩
  exact started.run (Draft.renumbering _ _) _

theorem draft_renumbered :
    List.Forall₂ (Piece.Renumbered names.issued others.issued) (draft names source).pieces
        (draft others source).pieces ∧
      List.Forall₂ (Helper.Renumbered names.issued others.issued) (draft names source).helpers
        (draft others source).helpers := by
  have drafts := (scan_renumbered names others source).finish (Draft.renumbering _ _)
  exact ⟨List.forall₂_reverse_iff.2 drafts.recent, drafts.helpers⟩

end Body

/-- Answers to one request with the names of two supplies. They fail alike and take no name, or they
differ in nothing but the names in their drafts. -/
inductive Answer.Renumbered (request : Request) (names others : NameSupply) :
    Answer → Answer → Prop where
  | failed (error : TemplateError) :
      Renumbered request names others ⟨.error error, names.issued⟩ ⟨.error error, others.issued⟩
  | compiled {draft later : Draft} (drafted : request.drafted? names = some draft)
      (redrafted : request.drafted? others = some later)
      (pieces : List.Forall₂ (Piece.Renumbered names.issued others.issued) draft.pieces later.pieces)
      (helpers : List.Forall₂ (Helper.Renumbered names.issued others.issued) draft.helpers
        later.helpers)
      (parameters : List String) (pragmas : List PlacedPragma) (taken : Nat) :
      Renumbered request names others
        ⟨.ok ⟨draft.render, parameters, pragmas⟩, names.issued + taken⟩
        ⟨.ok ⟨later.render, parameters, pragmas⟩, others.issued + taken⟩

namespace Request

variable {request : Request}

theorem prepare_of_plain (plain : request.error? = none) :
    request.prepare = .ok request.preparation := by
  rw [prepare_eq, plain]

theorem drafted?_of_plain (plain : request.error? = none) (names : NameSupply) :
    request.drafted? names = some (Body.draft names request.preparation.script) := by
  rw [drafted?, prepare_of_plain plain]

end Request

namespace Workbench

theorem answer_renumbered (bench other : Workbench) (request : Request) :
    Answer.Renumbered request bench.names other.names (bench.answer request).1
      (other.answer request).1 := by
  cases outcome : request.error? with
  | some error =>
    rw [answer_of_nested outcome, answer_of_nested outcome]
    exact .failed error
  | none =>
    have ready := Request.prepare_of_plain outcome
    let script := request.preparation.script
    obtain ⟨pieces, helpers⟩ := Body.draft_renumbered bench.names other.names script
    obtain ⟨-, -, taken, issued, others⟩ := Body.scan_renumbered bench.names other.names script
    rw [answer_of_plain outcome, answer_of_plain outcome, Request.compile_of_ok ready,
      Request.compile_of_ok ready, issued, others]
    exact .compiled (Request.drafted?_of_plain outcome _) (Request.drafted?_of_plain outcome _) pieces
      helpers _ _ taken

end Workbench

/-- The number of names given out is all that earlier requests have a part in: two workbenches give
answers that differ only in the numbers of the names given out since, whatever is left on them, and
so does a session from a fresh one. -/
theorem Session.renumbered (request : Request) :
    (∀ bench other : Workbench,
      Answer.Renumbered request bench.names other.names (bench.answer request).1
        (other.answer request).1) ∧
      ∀ earlier later, ∃ answer,
        (answers {} (earlier ++ request :: later))[earlier.length]? = some answer ∧
          Answer.Renumbered request {} (after {} earlier).names (Session.answer {} request).1
            answer := by
  refine ⟨fun bench other => bench.answer_renumbered other request, ?_⟩
  intro earlier later
  let bench : Workbench := {}
  have answered := bench.getElem?_answers earlier later request
  rw [(bench.answers_eq _).1] at answered
  refine ⟨_, answered, ?_⟩
  have same := bench.answer_renumbered (bench.after earlier) request
  rw [(bench.answer_eq request).1] at same
  have names : (bench.after earlier).names = (after {} earlier).names :=
    congrArg Session.names (bench.answers_eq earlier).2
  rw [names] at same
  exact same

end ScriptedMarkup
