import ScriptedMarkup.Proofs.Scan.Effect

/-!
# Names of a run

The bound captures that a run completes are numbered in order (`numbered`). Helpers and references
carry these names, and no others (`Body.declared_run`).
-/

namespace ScriptedMarkup

/-- Bindings with the names that they get when `issued` names have been given out. -/
def numbered (issued : Nat) (bindings : List Binding) : List (Binding × String) :=
  (bindings.zipIdx (issued + 1)).map fun (binding, number) => (binding, NameSupply.nameOf number)

theorem numbered_append (issued : Nat) (first second : List Binding) :
    numbered issued (first ++ second) =
      numbered issued first ++ numbered (issued + first.length) second := by
  have shift : issued + first.length + 1 = issued + 1 + first.length := by omega
  rw [numbered, List.zipIdx_append, List.map_append, ← shift]
  rfl

theorem length_numbered (issued : Nat) (bindings : List Binding) :
    (numbered issued bindings).length = bindings.length := by
  simp [numbered]

theorem names_numbered (issued : Nat) (bindings : List Binding) :
    (numbered issued bindings).map (·.2) =
      (List.range' (issued + 1) bindings.length).map NameSupply.nameOf := by
  rw [← List.zipIdx_map_snd (issued + 1) bindings, numbered, List.map_map, List.map_map]
  rfl

theorem of_mem_numbered {issued : Nat} {bindings : List Binding} {declared : Binding × String}
    (member : declared ∈ numbered issued bindings) : ∃ n, declared.2 = NameSupply.nameOf n := by
  obtain ⟨⟨binding, number⟩, -, rfl⟩ := List.mem_map.1 member
  exact ⟨number, rfl⟩

theorem nodup_names_numbered (issued : Nat) (bindings : List Binding) :
    ((numbered issued bindings).map (·.2)).Nodup := by
  rw [names_numbered]
  exact NameSupply.nodup_map_nameOf _ _

namespace Scan

/-- The bindings of the bound captures that signals complete, in order. -/
def completed (scan : Scan) : List Signal → List Binding
  | [] => []
  | signal :: more => (scan.completed? (scan.step signal)).toList ++ (scan.step signal).completed more

theorem completed_append (scan : Scan) (first second : List Signal) :
    scan.completed (first ++ second) = scan.completed first ++ (scan.run first).completed second := by
  induction first generalizing scan with
  | nil => rfl
  | cons signal first ih => simp [completed, ih]

theorem completed_concat (scan : Scan) (seen : List Signal) (signal : Signal) :
    scan.completed (seen ++ [signal]) =
      scan.completed seen ++ ((scan.run seen).completed? ((scan.run seen).step signal)).toList := by
  simp [completed_append, completed]

/-- What has happened to names by the time that `bindings` have been completed. -/
structure Names (start : Scan) (bindings : List Binding) (scan : Scan) : Prop where
  issued : scan.names.issued = start.names.issued + bindings.length
  declared : scan.draft.helpers.map Helper.declared = numbered start.names.issued bindings
  referred : (Draft.references scan.draft.recent).map (·.2) =
    (numbered start.names.issued bindings).reverse

theorem Names.effect {start scan next : Scan} {bindings : List Binding}
    (named : Names start bindings scan) (effect : scan.Effect next) :
    Names start (bindings ++ (scan.completed? next).toList) next := by
  obtain ⟨issued, declared, referred⟩ := named
  have unchanged (helpers : next.draft.helpers = scan.draft.helpers) (names : next.names = scan.names)
      (references : Draft.references next.draft.recent = Draft.references scan.draft.recent)
      (completed : scan.completed? next = none) :
      Names start (bindings ++ (scan.completed? next).toList) next := by
    rw [completed, Option.toList_none, List.append_nil]
    exact ⟨names ▸ issued, helpers ▸ declared, references ▸ referred⟩
  cases effect with
  | writes _ settled helpers names completed =>
    exact unchanged helpers names
      ((Draft.references_of_settled settled).trans (Draft.references_dropWhile _)) completed
  | opens _ _ _ settled helpers names completed =>
    have same := Draft.references_of_settled settled
    exact unchanged helpers names same completed
  | closes _ settled helpers names completed =>
    have same := Draft.references_of_settled settled
    exact unchanged helpers names same completed
  | binds binding body _ _ settled helpers names completed =>
    have one : numbered (start.names.issued + bindings.length) [binding] =
        [(binding, NameSupply.nameOf (scan.names.issued + 1))] := by
      rw [issued]
      rfl
    rw [completed, Option.toList_some]
    refine ⟨?_, ?_, ?_⟩
    · rw [names, List.length_append, List.length_singleton, ← Nat.add_assoc, ← issued]
    · rw [helpers, List.map_append, declared, numbered_append, one]
      rfl
    · rw [Draft.references_of_settled settled, numbered_append, one, List.reverse_append]
      exact congrArg _ referred

theorem names_start {start : Scan} (begins : start.Begins) : Names start [] start := by
  refine ⟨rfl, by rw [begins.helpers]; rfl, ?_⟩
  rw [← Draft.references_dropWhile]
  exact congrArg (fun recent => (Draft.references recent).map (·.2)) begins.settled

end Scan

/-- The pieces of a run refer to what its helpers declare: the bound captures that are completed,
numbered in order. -/
theorem Body.declared_run (names : NameSupply) {source : String} {seen more : List Signal}
    (split : Signal.ofSource source = seen ++ more) :
    let scan := (start names).run seen
    let bindings := (start names).completed seen
    scan.names.issued = names.issued + bindings.length ∧
      scan.draft.helpers.map Helper.declared = numbered names.issued bindings ∧
      scan.draft.pieces.filterMap Piece.reference? = numbered names.issued bindings := by
  obtain ⟨issued, declared, referred⟩ := (begins_start names).invariant
    (fun seen => Scan.Names (start names) ((start names).completed seen) ((start names).run seen))
    (Scan.names_start (begins_start names)) (fun {seen signal} effect named => by
      rw [Scan.completed_concat]
      rw [Scan.run_append] at effect ⊢
      exact named.effect effect) split
  refine ⟨issued, declared, ?_⟩
  rw [Draft.pieces, List.filterMap_reverse, Draft.filterMap_reference?_eq, referred,
    List.reverse_reverse]
  rfl

end ScriptedMarkup
