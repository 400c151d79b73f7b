import ScriptedMarkup.Proofs.Manuscript.Lines

/-!
# Manuscripts line by line

Without bound captures nothing is put into the text that is written already. Then each line of a
source is written on a line of its own (`Transcribes.writes_line`), and lines go on one after another
(`Transcribes.writes_lines`).
-/

namespace ScriptedMarkup

namespace Manuscript

/-- Since the text was `front` no line feed was written. A dash that can be struck out was written
since then too. -/
def Grows (front : List Char) (manuscript : Manuscript) : Prop :=
  ∃ own, manuscript.body = front ++ own ∧ '\n' ∉ own ∧
    (manuscript.dashed = true → own.getLast? = some '-')

theorem grows_refl {manuscript : Manuscript} (clear : manuscript.dashed = false) :
    Grows manuscript.body manuscript :=
  ⟨[], (List.append_nil _).symm, List.not_mem_nil, fun dashed => absurd dashed (by simp [clear])⟩

theorem Continues.grows {front : List Char} {manuscript next : Manuscript}
    (continues : manuscript.Continues next) (grows : Grows front manuscript) :
    Grows front next := by
  obtain ⟨own, same, clean, last⟩ := grows
  cases continues with
  | same body dashed => exact ⟨own, body.trans same, clean, fun dash => last (dashed ▸ dash)⟩
  | writes text lined body dashed =>
    refine ⟨own ++ text, ?_, ?_, ?_⟩
    · rw [body, same, List.append_assoc]
    · simp [clean, lined]
    · intro dash
      rw [List.getLast?_append, dashed dash]
      rfl
  | strikes kept text lined dashed dash body clear =>
    obtain ⟨shorter, rfl⟩ := List.getLast?_eq_some_iff.1 (last dashed)
    rw [dash, ← List.append_assoc] at same
    obtain ⟨rfl, -⟩ := List.append_inj' same rfl
    refine ⟨shorter ++ text, ?_, ?_, ?_⟩
    · rw [body, List.append_assoc]
    · simp only [List.mem_append, not_or] at clean ⊢
      exact ⟨clean.1, lined⟩
    · intro dash
      exact absurd dash (by simp [clear])

/-- What a literal starts a line with that goes on with it, if there is one. -/
def openings : List String := ["", "'"]

/-- What ends a line: of a literal that closes or goes on, if there is one. -/
def closings : List String := ["", "';", "' +"]

theorem endLine_of_unbound {lexing : Lexing}
    (unbound : ∀ binding, lexing.capture ≠ some (.bound binding)) (manuscript : Manuscript) :
    ∃ closing ∈ closings, ∃ opening ∈ openings,
      (manuscript.endLine lexing).body =
        manuscript.body ++ closing.toList ++ '\n' :: opening.toList ∧
      (manuscript.endLine lexing).dashed = false := by
  unfold endLine
  cases active : lexing.capture with
  | none =>
    cases mode : lexing.mode with
    | markup =>
      dsimp only
      split
      · exact ⟨"' +", by decide, "'", by decide, by simp [write], rfl⟩
      · exact ⟨"';", by decide, "", by decide, by simp [write], rfl⟩
    | script | tag => exact ⟨"", by decide, "", by decide, by simp [write], rfl⟩
  | some capture =>
    cases capture with
    | expression =>
      refine ⟨"", by decide, "", by decide, ?_⟩
      simp [extend, active, write]
    | bound binding => exact absurd active (unbound binding)

/-- The start of a line: after the last line feed there is at most a quote. -/
def AtLine (feeds : Nat) (manuscript : Manuscript) : Prop :=
  ∃ front, ∃ opening ∈ openings, manuscript.body = front ++ '\n' :: opening.toList ∧
    front.count '\n' = feeds ∧ manuscript.dashed = false

theorem lined_opening {opening : String} (opens : opening ∈ openings) :
    '\n' ∉ opening.toList := by
  revert opening
  decide

theorem lined_closing {closing : String} (closes : closing ∈ closings) :
    '\n' ∉ closing.toList := by
  revert closing
  decide

end Manuscript

namespace Transcribes

variable {scan : Scan} {manuscript : Manuscript} {line : Nat}

theorem grows_visits (transcribes : Transcribes scan manuscript) {front before text : List Char}
    (lined : '\n' ∉ text) (unbound : scan.Unbound (Signal.visits line before text))
    (grows : Manuscript.Grows front manuscript) :
    Manuscript.Grows front (manuscript.run scan (Signal.visits line before text)) := by
  induction text generalizing scan manuscript before with
  | nil => exact grows
  | cons c text ih =>
    obtain ⟨here, later⟩ := unbound
    let act := Act.read scan.lexing c ⟨line, before, c :: text⟩
    have fits : act.Fits scan.lexing := Act.fits_read _ _ _
    have other (binding : Binding) : act ≠ .endCapture (.bound binding) := by
      intro ends
      rw [ends] at fits
      exact here binding fits.2
    have performed := transcribes.continues_perform fits (Act.lined_read _ _ _ _ _) other
    have received := Manuscript.continues_receive (scan.perform act).lexing
      (List.ne_of_not_mem_cons lined).symm (manuscript.perform scan.names act)
    exact ih (transcribes.step _) (List.not_mem_of_not_mem_cons lined) later
      (received.grows (performed.grows grows))

/-- What is written while a line is read has no line feed in it, and the end of the line adds one,
between quotes if a literal is open. -/
theorem writes_line {feeds : Nat} (transcribes : Transcribes scan manuscript)
    (atLine : manuscript.AtLine feeds) {text : List Char} (lined : '\n' ∉ text)
    (unbound : scan.Unbound (Signal.ofLine line text)) :
    ∃ (own : List Char) (closing opening : String),
      (manuscript.run scan (.lineStart (.start line text) :: Signal.visits line [] text)).body =
        manuscript.body ++ own ∧
      (manuscript.run scan (Signal.ofLine line text)).body =
        manuscript.body ++ (own ++ closing.toList ++ '\n' :: opening.toList) ∧
      (manuscript.run scan (Signal.ofLine line text)).AtLine (feeds + 1) ∧
      '\n' ∉ own ∧ closing ∈ Manuscript.closings := by
  obtain ⟨front, before, befores, started, rfl, clear⟩ := atLine
  obtain ⟨within, ⟨here, -⟩⟩ := Scan.unbound_append.1 unbound
  obtain ⟨own, body, clean, -⟩ := (transcribes.startLine (.start line text)).grows_visits lined
    within.2 (Manuscript.grows_refl clear)
  obtain ⟨closing, closes, opening, opens, ended, cleared⟩ :=
    Manuscript.endLine_of_unbound here
      (manuscript.run scan (.lineStart (.start line text) :: Signal.visits line [] text))
  have whole : manuscript.run scan (Signal.ofLine line text) =
      (manuscript.run scan (.lineStart (.start line text) :: Signal.visits line [] text)).endLine
        (scan.run (.lineStart (.start line text) :: Signal.visits line [] text)).lexing := by
    rw [Signal.ofLine, Manuscript.run_concat]
    rfl
  have written : (manuscript.run scan (Signal.ofLine line text)).body =
      manuscript.body ++ (own ++ closing.toList ++ '\n' :: opening.toList) := by
    rw [whole, ended, ← List.append_assoc, ← List.append_assoc]
    exact congrArg (· ++ _ ++ _) body
  refine ⟨own, closing, opening, body, written, ?_, clean, closes⟩
  refine ⟨front ++ '\n' :: (before.toList ++ own ++ closing.toList), opening, opens, ?_, ?_, ?_⟩
  · rw [written, started]
    simp
  · have counts : before.toList.count '\n' = 0 ∧ own.count '\n' = 0 ∧
        closing.toList.count '\n' = 0 :=
      ⟨List.count_eq_zero.2 (Manuscript.lined_opening befores), List.count_eq_zero.2 clean,
        List.count_eq_zero.2 (Manuscript.lined_closing closes)⟩
    simp only [List.count_append, List.count_cons_self, counts]
  · rw [whole, cleared]

/-- Lines are written one after another, and what is written stays. -/
theorem writes_lines {feeds : Nat} (transcribes : Transcribes scan manuscript)
    (atLine : manuscript.AtLine feeds) {texts : List (List Char)}
    (lined : ∀ text ∈ texts, '\n' ∉ text) (unbound : scan.Unbound (Signal.ofLines line texts)) :
    (manuscript.run scan (Signal.ofLines line texts)).AtLine (feeds + texts.length) ∧
      manuscript.body <+: (manuscript.run scan (Signal.ofLines line texts)).body := by
  induction texts generalizing scan manuscript feeds line with
  | nil => exact ⟨atLine, List.prefix_refl _⟩
  | cons text texts ih =>
    obtain ⟨first, rest⟩ := List.forall_mem_cons.1 lined
    obtain ⟨here, later⟩ := Scan.unbound_append.1 unbound
    obtain ⟨own, closing, opening, -, written, next, -⟩ := transcribes.writes_line atLine first here
    obtain ⟨ended, prefixed⟩ := ih (transcribes.run _) next rest later
    rw [Signal.ofLines, Manuscript.run_append, List.length_cons, Nat.add_comm texts.length,
      ← Nat.add_assoc]
    refine ⟨ended, List.IsPrefix.trans ?_ prefixed⟩
    rw [written]
    exact List.prefix_append _ _

/-- What is written for one of many lines stands between two line feeds. -/
theorem writes_among {feeds : Nat} (transcribes : Transcribes scan manuscript)
    (atLine : manuscript.AtLine feeds) {earlier later : List (List Char)} {text : List Char}
    (lined : ∀ line ∈ earlier ++ text :: later, '\n' ∉ line)
    (unbound : scan.Unbound (Signal.ofLines line (earlier ++ text :: later))) :
    let before := Signal.ofLines line earlier
    let number := line + earlier.length
    let within := .lineStart (.start number text) :: Signal.visits number [] text
    ∃ (front own tail : List Char) (opening closing : String),
      (manuscript.run scan (before ++ within)).body =
        (manuscript.run scan before).body ++ own ∧
      (manuscript.run scan (Signal.ofLines line (earlier ++ text :: later))).body =
        front ++ '\n' :: (opening.toList ++ own ++ closing.toList ++ '\n' :: tail) ∧
      front.count '\n' = feeds + earlier.length ∧ '\n' ∉ own ∧
      opening ∈ Manuscript.openings ∧ closing ∈ Manuscript.closings := by
  intro before number within
  obtain ⟨first, others⟩ := List.forall_mem_append.1 lined
  obtain ⟨here, rest⟩ := List.forall_mem_cons.1 others
  have signals : Signal.ofLines line (earlier ++ text :: later) =
      before ++ (Signal.ofLine number text ++ Signal.ofLines (number + 1) later) :=
    Signal.ofLines_append earlier (text :: later) line
  rw [signals] at unbound ⊢
  obtain ⟨unboundBefore, unbound⟩ := Scan.unbound_append.1 unbound
  obtain ⟨unboundHere, unboundAfter⟩ := Scan.unbound_append.1 unbound
  obtain ⟨started, -⟩ := transcribes.writes_lines atLine first unboundBefore
  obtain ⟨own, closing, next, visited, written, ended, clean, closes⟩ :=
    (transcribes.run before).writes_line started here unboundHere
  obtain ⟨-, tail, continued⟩ :=
    ((transcribes.run before).run _).writes_lines ended rest unboundAfter
  obtain ⟨front, opening, opens, body, count, -⟩ := started
  refine ⟨front, own, next.toList ++ tail, opening, closing, ?_, ?_, count, clean, opens, closes⟩
  · rw [Manuscript.run_append]
    exact visited
  · rw [Manuscript.run_append, Manuscript.run_append, ← continued, written, body]
    simp

end Transcribes

end ScriptedMarkup
