import ScriptedMarkup.Body
import ScriptedMarkup.Proofs.Draft.Congruence

/-!
# Scans of related drafts

A scan only writes to its draft and asks for its size. So a relation that writing keeps
(`Draft.Congruence`) is kept by a run (`Scan.Related.run`), and the lexical state is the same on
both sides throughout.
-/

namespace ScriptedMarkup.Scan

/-- Scans in the same lexical state, with related drafts and related supplies. -/
structure Related (Recents : List Piece → List Piece → Prop)
    (Helpers : List Helper → List Helper → Prop) (Supplies : NameSupply → NameSupply → Prop)
    (scan later : Scan) : Prop where
  lexing : later.lexing = scan.lexing
  draft : Draft.Related Recents Helpers scan.draft later.draft
  names : Supplies scan.names later.names

namespace Related

variable {Recents : List Piece → List Piece → Prop} {Helpers : List Helper → List Helper → Prop}
  {Supplies : NameSupply → NameSupply → Prop} {scan later : Scan}

theorem exists_eq (related : Related Recents Helpers Supplies scan later) :
    ∃ draft names, later = { scan with draft, names } ∧
      Draft.Related Recents Helpers scan.draft draft ∧ Supplies scan.names names := by
  obtain ⟨_, draft, names⟩ := later
  obtain ⟨rfl, drafts, supplies⟩ := related
  exact ⟨draft, names, rfl, drafts, supplies⟩

variable (congruence : Draft.Congruence Recents Helpers Supplies)

include congruence

theorem extend (related : Related Recents Helpers Supplies scan later) (c : Char) :
    Draft.Related Recents Helpers (scan.extend c) (later.extend c) := by
  obtain ⟨draft, names, rfl, drafts, -⟩ := related.exists_eq
  unfold Scan.extend
  simp only
  split
  · exact drafts.expressionChar congruence c
  · exact drafts.heldChar c
  · exact drafts.codeChar congruence c
  · exact drafts.textChar congruence c
  · exact drafts

theorem receive (related : Related Recents Helpers Supplies scan later) (c : Char) :
    Related Recents Helpers Supplies (scan.receive c) (later.receive c) := by
  have extended := related.extend congruence c
  obtain ⟨draft, names, rfl, drafts, supplies⟩ := related.exists_eq
  unfold Scan.receive
  split
  · exact ⟨rfl, extended, supplies⟩
  · exact ⟨rfl, drafts, supplies⟩

theorem bind (related : Related Recents Helpers Supplies scan later) (binding : Binding) :
    Related Recents Helpers Supplies (scan.bind binding) (later.bind binding) := by
  obtain ⟨draft, names, rfl, drafts, supplies⟩ := related.exists_eq
  exact ⟨rfl, drafts.bind congruence supplies _ binding, congruence.next supplies⟩

theorem perform (related : Related Recents Helpers Supplies scan later) (act : Act) :
    Related Recents Helpers Supplies (scan.perform act) (later.perform act) := by
  obtain ⟨draft, names, rfl, drafts, supplies⟩ := related.exists_eq
  cases act with
  | openLiteral =>
    refine ⟨?_, drafts.push congruence _ rfl, supplies⟩
    simp only [Scan.perform, drafts.size congruence]
  | beginCapture capture =>
    cases capture with
    | expression => exact ⟨rfl, drafts.push congruence _ rfl, supplies⟩
    | bound binding => exact ⟨rfl, drafts.hold, supplies⟩
  | endCapture capture =>
    have ended : Related Recents Helpers Supplies { scan with lexing := scan.lexing.endCapture }
        { scan with lexing := scan.lexing.endCapture, draft, names } := ⟨rfl, drafts, supplies⟩
    cases capture with
    | expression => exact ended
    | bound binding => exact ended.bind congruence binding
  | shorthand shorthand =>
    cases shorthand with
    | write call width => exact ⟨rfl, drafts.writeCall congruence call, supplies⟩
    | _ => exact ⟨rfl, drafts, supplies⟩
  | _ => exact ⟨rfl, drafts, supplies⟩

theorem endLine (related : Related Recents Helpers Supplies scan later) :
    Related Recents Helpers Supplies scan.endLine later.endLine := by
  have extended := related.extend congruence '\n'
  obtain ⟨draft, names, rfl, drafts, supplies⟩ := related.exists_eq
  unfold Scan.endLine
  simp only
  split
  · split
    · exact ⟨rfl, drafts.push congruence _ rfl, supplies⟩
    · have closed := drafts.push congruence .closeLiteral rfl
      exact ⟨rfl, closed.codeChar congruence '\n', supplies⟩
  · exact ⟨rfl, drafts.codeChar congruence '\n', supplies⟩
  · exact ⟨rfl, extended, supplies⟩

theorem step (related : Related Recents Helpers Supplies scan later) (signal : Signal) :
    Related Recents Helpers Supplies (scan.step signal) (later.step signal) := by
  cases signal with
  | lineStart place =>
    obtain ⟨draft, names, rfl, drafts, supplies⟩ := related.exists_eq
    exact ⟨rfl, drafts, supplies⟩
  | visit c place =>
    unfold Scan.step
    rw [related.lexing]
    exact (related.perform congruence _).receive congruence c
  | lineEnd place => exact related.endLine congruence

theorem run (related : Related Recents Helpers Supplies scan later) (signals : List Signal) :
    Related Recents Helpers Supplies (scan.run signals) (later.run signals) := by
  induction signals generalizing scan later with
  | nil => exact related
  | cons signal more ih => exact ih (related.step congruence signal)

theorem finish (related : Related Recents Helpers Supplies scan later) :
    Draft.Related Recents Helpers (Body.finish scan) (Body.finish later) := by
  obtain ⟨draft, names, rfl, drafts, -⟩ := related.exists_eq
  have kept : Draft.Related Recents Helpers
      (if scan.lexing.capture.isSome then scan.draft.release.2 else scan.draft)
      (if scan.lexing.capture.isSome then draft.release.2 else draft) := by
    split
    · exact drafts.release
    · exact drafts
  unfold Body.finish
  simp only
  split
  · exact (kept.push congruence .closeLiteral rfl).code congruence _
  · exact kept.code congruence _

end Related

end ScriptedMarkup.Scan
