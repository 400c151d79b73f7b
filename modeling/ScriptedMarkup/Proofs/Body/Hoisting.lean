import ScriptedMarkup.Proofs.Draft.Layout
import ScriptedMarkup.Proofs.Scan.Hoisting
import ScriptedMarkup.Proofs.Scan.Names

/-!
# Declarations of a body

The end of a source closes the literal that is open there, and changes nothing else about literals
and references. So the declarations of a body stand where those of its scan belong
(`Body.hoisting`).
-/

namespace ScriptedMarkup

theorem Draft.count_reference (pieces : List Piece) (binding : Binding) (name : String) :
    pieces.count (.reference binding name) =
      (pieces.filterMap Piece.reference?).count (binding, name) := by
  induction pieces with
  | nil => rfl
  | cons piece pieces ih =>
    cases piece with
    | reference other given =>
      have same : (Piece.reference other given == .reference binding name) =
          ((other, given) == (binding, name)) := by
        rw [Bool.eq_iff_iff, beq_iff_eq, beq_iff_eq]
        simp
      have head : (Piece.reference other given :: pieces).filterMap Piece.reference? =
          (other, given) :: pieces.filterMap Piece.reference? := rfl
      rw [head, List.count_cons, List.count_cons, same, ih]
    | _ =>
      rw [List.count_cons_of_ne (by simp)]
      exact ih

namespace Body

@[simp]
theorem helpers_finish (scan : Scan) : (finish scan).helpers = scan.draft.helpers := by
  unfold finish
  simp only [Draft.helpers_code]
  split <;> split <;> rfl

theorem effect_finish {scan : Scan} (mode : scan.lexing.mode ≠ .tag) :
    scan.Effect
      { scan with lexing := { scan.lexing with mode := .script }, draft := finish scan } := by
  cases found : scan.lexing.mode with
  | markup =>
    refine .closes rfl ?_ (helpers_finish scan) rfl (Scan.completed?_of_same rfl)
    simp only [finish, found, if_true, Draft.settled_code]
    rw [Draft.settled_push_of_not _ rfl]
    split <;> rfl
  | script =>
    refine .writes ⟨found.symm, rfl⟩ ?_ (helpers_finish scan) rfl (Scan.completed?_of_same rfl)
    simp only [finish, found, reduceCtorEq, if_false, Draft.settled_code]
    split <;> rfl
  | tag => exact absurd found mode

theorem mode_ne_tag (names : NameSupply) {source : String} {seen more : List Signal}
    (split : Signal.ofSource source = seen ++ more) :
    ((start names).run seen).lexing.mode ≠ .tag := by
  obtain ⟨unread, reached, -⟩ := reached_of_ofSource_eq (start names) split
  exact (reached.phase_of_begins (begins_start names)).mode_ne_tag

theorem hoisted_draft (names : NameSupply) (source : String) : (draft names source).Hoisted := by
  have whole : Signal.ofSource source = Signal.ofSource source ++ [] := (List.append_nil _).symm
  have hoists : (scan names source).Hoists := (begins_start names).hoists whole
  exact ((effect_finish (mode_ne_tag names whole)).hoists hoists).declares.hoisted

theorem declared_draft (names : NameSupply) (source : String) :
    let bindings := (start names).completed (Signal.ofSource source)
    (scan names source).names.issued = names.issued + bindings.length ∧
      (draft names source).helpers.map Helper.declared = numbered names.issued bindings ∧
      (draft names source).pieces.filterMap Piece.reference? = numbered names.issued bindings := by
  intro bindings
  have whole : Signal.ofSource source = Signal.ofSource source ++ [] := (List.append_nil _).symm
  obtain ⟨issued, declared, -⟩ := declared_run names whole
  have declared : (draft names source).helpers.map Helper.declared =
      numbered names.issued bindings := by
    rw [draft, helpers_finish]
    exact declared
  exact ⟨issued, declared, (hoisted_draft names source).paired.trans declared⟩

/-- At every point of a run the helpers are anchored to the literals of their references, and stay
so. In the text of the body each declaration stands on lines of its own before the literal that
holds its one reference. -/
theorem hoisting (names : NameSupply) (source : String) :
    let body := draft names source
    (∀ seen next more, Signal.ofSource source = seen ++ next ++ more →
      ((start names).run seen).draft.Hoisted ∧
      ((start names).run seen).draft.Keeps ((start names).run (seen ++ next)).draft ∧
      ((start names).run seen).draft.Keeps body) ∧
    body.Hoisted ∧
    (compile names source).1 = String.join (body.parts.map Part.render) ∧
    body.parts.filterMap Part.piece? = body.pieces ∧
    body.parts.filterMap Part.declaration? = body.helpers ∧
    (∀ helper ∈ body.helpers, body.pieces.count (.reference helper.binding helper.name) = 1) ∧
    ∀ before helper after, body.parts = before ++ .declared helper :: after →
      Draft.Stands helper before after := by
  intro body
  have whole : Signal.ofSource source = Signal.ofSource source ++ [] := (List.append_nil _).symm
  have begins := begins_start names
  have hoists : (scan names source).Hoists := begins.hoists whole
  have effect := effect_finish (mode_ne_tag names whole)
  obtain ⟨declares, -, ended, apart⟩ := effect.hoists hoists
  have hoisted : body.Hoisted := declares.hoisted
  refine ⟨?_, hoisted, hoisted.render_eq, ?_, ?_, ?_, ?_⟩
  · intro seen next more split
    have before : seen <+: seen ++ next := List.prefix_append _ _
    have split' : Signal.ofSource source = seen ++ (next ++ more) := by
      rw [split, List.append_assoc]
    have declared := (begins.hoists split').declares
    obtain ⟨helpers, literals⟩ := begins.holds split before
    obtain ⟨allHelpers, allLiterals⟩ := begins.holds whole ⟨_, split'.symm⟩
    refine ⟨declared.hoisted, Draft.keeps_of_holds declared helpers literals, ?_⟩
    obtain ⟨keptHelpers, keptLiterals⟩ := effect.holds
    exact Draft.keeps_of_holds declared (allHelpers.trans keptHelpers) fun other suffix =>
      keptLiterals _ (allLiterals _ suffix)
  · rw [hoisted.parts_eq, Draft.filterMap_piece?_layout]
  · rw [hoisted.parts_eq, Draft.filterMap_declaration?_layout]
  · intro helper member
    obtain ⟨-, declared, -⟩ := declared_run names whole
    have distinct : (body.helpers.map Helper.declared).Nodup := by
      rw [show body.helpers = (scan names source).draft.helpers from helpers_finish _, scan, declared]
      exact List.Pairwise.of_map (·.2) (fun _ _ differ same => differ (congrArg _ same))
        (nodup_names_numbered _ _)
    rw [Draft.count_reference, hoisted.paired, distinct.count, if_pos]
    exact List.mem_map_of_mem member
  · exact fun before helper after split => hoisted.stands apart (ended rfl) split

end Body

end ScriptedMarkup
