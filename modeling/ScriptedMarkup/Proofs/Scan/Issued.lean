import ScriptedMarkup.Proofs.Scan.Effect

/-!
# Helpers of a run

A scan only adds helpers, and names them with the next numbers (`issues_run`). No run gives one name
to two of them, whatever it starts from.
-/

namespace ScriptedMarkup.Scan

/-- The helpers that a scan has by the next state, named in order. -/
structure Issues (scan next : Scan) (helpers : List Helper) : Prop where
  added : next.draft.helpers = scan.draft.helpers ++ helpers
  named : helpers.map (·.name) =
    (List.range' (scan.names.issued + 1) helpers.length).map NameSupply.nameOf
  issued : next.names.issued = scan.names.issued + helpers.length

variable {scan between next : Scan} {first second : List Helper}

theorem issues_nil (helpers : next.draft.helpers = scan.draft.helpers)
    (names : next.names = scan.names) : scan.Issues next [] :=
  ⟨by rw [helpers, List.append_nil], rfl, by rw [names]; rfl⟩

theorem Issues.trans (issues : scan.Issues between first) (more : between.Issues next second) :
    scan.Issues next (first ++ second) := by
  refine ⟨?_, ?_, ?_⟩
  · rw [more.added, issues.added, List.append_assoc]
  · have shift : scan.names.issued + first.length + 1 = scan.names.issued + 1 + first.length := by
      omega
    rw [List.map_append, issues.named, more.named, issues.issued, shift, ← List.map_append,
      List.range'_append_1, List.length_append]
  · rw [more.issued, issues.issued, List.length_append, Nat.add_assoc]

theorem issues_perform (scan : Scan) (act : Act) :
    ∃ helpers, scan.Issues (scan.perform act) helpers := by
  cases act with
  | endCapture capture =>
    cases capture with
    | expression => exact ⟨[], issues_nil rfl rfl⟩
    | bound binding => exact ⟨[_], rfl, rfl, rfl⟩
  | beginCapture capture => cases capture <;> exact ⟨[], issues_nil rfl rfl⟩
  | shorthand shorthand =>
    cases shorthand with
    | write call width => exact ⟨[], issues_nil (Draft.helpers_writeCall _ _) rfl⟩
    | _ => exact ⟨[], issues_nil rfl rfl⟩
  | _ => exact ⟨[], issues_nil rfl rfl⟩

theorem issues_step (scan : Scan) (signal : Signal) :
    ∃ helpers, scan.Issues (scan.step signal) helpers := by
  cases signal with
  | lineStart place => exact ⟨[], issues_nil rfl rfl⟩
  | visit c place =>
    obtain ⟨helpers, issues⟩ := scan.issues_perform (.read scan.lexing c place)
    refine ⟨helpers ++ [], issues.trans ?_⟩
    show Scan.Issues _ (receive _ c) []
    unfold receive
    split
    · exact issues_nil (helpers_extend _ c) rfl
    · exact issues_nil rfl rfl
  | lineEnd place =>
    refine ⟨[], ?_⟩
    show scan.Issues scan.endLine []
    unfold endLine
    dsimp only
    split
    · split
      · exact issues_nil rfl rfl
      · exact issues_nil (Draft.helpers_codeChar _ _) rfl
    · exact issues_nil (Draft.helpers_codeChar _ _) rfl
    · exact issues_nil (helpers_extend _ _) rfl

theorem issues_run (scan : Scan) (signals : List Signal) :
    ∃ helpers, scan.Issues (scan.run signals) helpers := by
  induction signals generalizing scan with
  | nil => exact ⟨[], issues_nil rfl rfl⟩
  | cons signal more ih =>
    obtain ⟨first, issues⟩ := scan.issues_step signal
    obtain ⟨second, further⟩ := ih (scan.step signal)
    exact ⟨first ++ second, issues.trans further⟩

theorem helpers_run (scan : Scan) (signals : List Signal) :
    scan.draft.helpers <+: (scan.run signals).draft.helpers := by
  obtain ⟨helpers, issues⟩ := scan.issues_run signals
  exact ⟨helpers, issues.added.symm⟩

theorem nodup_names_run (bare : scan.draft.helpers = []) (signals : List Signal) :
    ((scan.run signals).draft.helpers.map (·.name)).Nodup := by
  obtain ⟨helpers, added, named, -⟩ := scan.issues_run signals
  rw [added, bare, List.nil_append, named]
  exact NameSupply.nodup_map_nameOf _ _

end ScriptedMarkup.Scan
