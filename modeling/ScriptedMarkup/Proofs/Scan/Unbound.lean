import ScriptedMarkup.Proofs.Manuscript.Transcription
import ScriptedMarkup.Proofs.Scan.Issued

/-!
# Runs without bound captures

A bound capture ends with a name, or does not end. So a run that gives out no name, and ends outside
of captures, is never within a bound capture (`Scan.unbound_of_issued`).
-/

namespace ScriptedMarkup.Scan

variable {scan : Scan}

/-- No signal of a list is met within a bound capture. -/
def Unbound (scan : Scan) : List Signal → Prop
  | [] => True
  | signal :: more =>
    (∀ binding, scan.lexing.capture ≠ some (.bound binding)) ∧ (scan.step signal).Unbound more

theorem unbound_append {first second : List Signal} :
    scan.Unbound (first ++ second) ↔ scan.Unbound first ∧ (scan.run first).Unbound second := by
  induction first generalizing scan with
  | nil => simp [Unbound]
  | cons signal first ih =>
    rw [List.cons_append, Unbound, Unbound, ih, and_assoc]
    rfl

/-- A bound capture goes on, or it takes a name. -/
theorem bound_step {binding : Binding} (active : scan.lexing.capture = some (.bound binding))
    (signal : Signal) :
    (scan.step signal).lexing.capture = some (.bound binding) ∨
      scan.names.issued < (scan.step signal).names.issued := by
  cases signal with
  | lineStart place => exact .inl active
  | lineEnd place => exact .inl ((scan.capture_endLine).trans active)
  | visit c place =>
    have fits := Act.fits_read scan.lexing c place
    show (receive _ c).lexing.capture = _ ∨ _ < (receive _ c).names.issued
    rw [capture_receive, names_receive]
    generalize Act.read scan.lexing c place = act at fits
    cases act with
    | beginCapture capture => exact absurd (active.symm.trans fits.2) (by simp)
    | endCapture capture =>
      obtain rfl := Option.some.inj (active.symm.trans fits.2)
      exact .inr (Nat.lt_succ_self _)
    | shorthand shorthand => cases shorthand <;> exact .inl active
    | _ => exact .inl active

theorem issued_le_run (scan : Scan) (signals : List Signal) :
    scan.names.issued ≤ (scan.run signals).names.issued := by
  obtain ⟨helpers, issues⟩ := scan.issues_run signals
  rw [issues.issued]
  exact Nat.le_add_right _ _

theorem issued_lt_run {binding : Binding} {signals : List Signal}
    (active : scan.lexing.capture = some (.bound binding))
    (idle : (scan.run signals).lexing.capture = none) :
    scan.names.issued < (scan.run signals).names.issued := by
  induction signals generalizing scan with
  | nil => exact absurd (active.symm.trans idle) (by simp)
  | cons signal more ih =>
    have later := (scan.step signal).issued_le_run more
    obtain active | issued := bound_step active signal
    · have first := scan.issued_le_run [signal]
      exact Nat.lt_of_le_of_lt first (ih active idle)
    · exact Nat.lt_of_lt_of_le issued later

theorem unbound_of_issued {signals : List Signal}
    (idle : (scan.run signals).lexing.capture = none)
    (issued : (scan.run signals).names.issued = scan.names.issued) : scan.Unbound signals := by
  induction signals generalizing scan with
  | nil => trivial
  | cons signal more ih =>
    refine ⟨?_, ih idle ?_⟩
    · intro binding active
      exact absurd issued (Nat.ne_of_gt (issued_lt_run active idle))
    · have first := scan.issued_le_run [signal]
      have rest := (scan.step signal).issued_le_run more
      exact Nat.le_antisymm (issued.trans_le first) rest

end ScriptedMarkup.Scan
