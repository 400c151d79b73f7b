import ScriptedMarkup.Proofs.Body.Hoisting
import ScriptedMarkup.Proofs.Scan.Leading
import ScriptedMarkup.Proofs.Text.Returns

/-!
# Sources with a header

Lines of statements in front of a source stand after the prologue as they are, and the rest of the
body is that of the source alone (`Body.compile_append`). A scan passes them on (`Scan.run_header`)
and is then in the state in which it started.
-/

namespace ScriptedMarkup

namespace Scan

/-! ### Numbers of lines -/

theorem run_visits_renumbered (scan : Scan) (m n : Nat) (before rest : List Char) :
    scan.run (Signal.visits m before rest) = scan.run (Signal.visits n before rest) := by
  induction rest generalizing scan before with
  | nil => rfl
  | cons c rest ih => exact ih (scan.step (.visit c ⟨m, before, c :: rest⟩)) (c :: before)

/-- What a scan does has nothing to do with the numbers of the lines. -/
theorem run_renumbered (scan : Scan) (m n : Nat) (lines : List (List Char)) :
    scan.run (Signal.ofLines m lines) = scan.run (Signal.ofLines n lines) := by
  induction lines generalizing scan m n with
  | nil => rfl
  | cons text lines ih =>
    have line : scan.run (Signal.ofLine m text) = scan.run (Signal.ofLine n text) := by
      unfold Signal.ofLine
      rw [run_append, run_append, run_cons, run_cons, run_visits_renumbered _ m n]
      rfl
    rw [Signal.ofLines, Signal.ofLines, run_append, run_append, line]
    exact ih _ (m + 1) (n + 1)

/-! ### Lines of statements -/

/-- The state before a line of statements. -/
structure Ready (scan : Scan) : Prop where
  mode : scan.lexing.mode = .script
  idle : scan.lexing.capture = none
  passes : scan.lexing.withheld = 0
  uncarried : scan.lexing.continues = false

/-- The state after statements, with a note on whether the last line of them starts with a plus
sign. -/
def stating (scan : Scan) (plusLed : Bool) (statements : String) : Scan where
  lexing := { scan.lexing with plusLed }
  draft := scan.draft.code statements
  names := scan.names

theorem stating_stating (scan : Scan) (earlier later : Bool) (first second : String) :
    (scan.stating earlier first).stating later second = scan.stating later (first ++ second) := by
  simp [stating, Draft.code_append]

variable {scan : Scan}

theorem Ready.stating (ready : scan.Ready) (plusLed : Bool) (statements : String) :
    (scan.stating plusLed statements).Ready :=
  { ready with }

theorem Ready.startLine (ready : scan.Ready) (line : Nat) (text : List Char) :
    scan.startLine (.start line text) = scan.stating (text.head? == some '+') "" := by
  simp [Scan.startLine, Scan.stating, Draft.code, ready.mode, ready.uncarried, Cursor.firstChar?,
    Cursor.text, Cursor.start]

theorem Ready.endLine (ready : scan.Ready) :
    scan.endLine = scan.stating scan.lexing.plusLed (String.singleton '\n') := by
  rw [endLine_script ready.mode ready.idle, Scan.stating, Draft.code_singleton, ← ready.uncarried]

theorem Ready.run_visits (ready : scan.Ready) {before rest : List Char}
    (other : rest.head? = some '<' → before ≠ []) (line : Nat) :
    scan.run (Signal.visits line before rest) =
      scan.stating scan.lexing.plusLed (String.ofList rest) := by
  induction rest generalizing scan before with
  | nil => rfl
  | cons c rest ih =>
    have statement : scan.step (.visit c ⟨line, before, c :: rest⟩) =
        scan.stating scan.lexing.plusLed (String.singleton c) := by
      rw [Scan.stating, Draft.code_singleton]
      apply step_statement ready.mode ready.idle ready.passes
      rintro ⟨rfl, first⟩
      exact other rfl (isFirst_iff.1 first)
    have joined : String.singleton c ++ String.ofList rest = String.ofList (c :: rest) := by
      rw [String.singleton_eq_ofList, ← String.ofList_append]
      rfl
    have notFirst : rest.head? = some '<' → c :: before ≠ [] := by simp
    rw [Signal.visits, run_cons, statement, ih (ready.stating _ _) notFirst, stating_stating, joined]
    rfl

theorem Ready.run_line (ready : scan.Ready) {text : List Char} (other : text.head? ≠ some '<')
    (line : Nat) :
    scan.run (Signal.ofLine line text) =
      scan.stating (text.head? == some '+') (String.ofList (text ++ ['\n'])) := by
  have noted := ready.stating (text.head? == some '+') ""
  have notFirst : text.head? = some '<' → ([] : List Char) ≠ [] := by
    intro opens
    exact absurd opens other
  have visited := noted.run_visits notFirst line
  have passed := noted.stating (text.head? == some '+') (String.ofList text)
  calc scan.run (Signal.ofLine line text)
    _ = (((scan.startLine (.start line text)).run (Signal.visits line [] text)).run
          [.lineEnd (.final line text)]) := by
        rw [Signal.ofLine, run_append, run_cons]
        rfl
    _ = Scan.endLine ((scan.stating (text.head? == some '+') "").stating
          (text.head? == some '+') (String.ofList text)) := by
        rw [ready.startLine, visited]
        rfl
    _ = scan.stating (text.head? == some '+')
          (("" ++ String.ofList text) ++ String.singleton '\n') := by
        rw [passed.endLine, stating_stating, stating_stating]
        rfl
    _ = scan.stating (text.head? == some '+') (String.ofList (text ++ ['\n'])) := by
        rw [String.empty_append, String.singleton_eq_ofList, ← String.ofList_append]

/-- Lines of statements are passed on, and leave the state as it was. -/
theorem Ready.run_lines (ready : scan.Ready) {lines : List (List Char)}
    (other : ∀ text ∈ lines, text.head? ≠ some '<') (line : Nat) :
    ∃ plusLed, scan.run (Signal.ofLines line lines) =
      scan.stating plusLed (String.ofList (lines.flatMap (· ++ ['\n']))) := by
  induction lines generalizing scan line with
  | nil => exact ⟨scan.lexing.plusLed, rfl⟩
  | cons text lines ih =>
    obtain ⟨first, rest⟩ := List.forall_mem_cons.1 other
    obtain ⟨plusLed, run⟩ := ih (ready.stating _ _) rest (line + 1)
    refine ⟨plusLed, ?_⟩
    rw [Signal.ofLines, run_append, ready.run_line first, run, stating_stating, List.flatMap_cons,
      ← String.ofList_append]

end Scan

namespace Body

theorem ready_start (names : NameSupply) : (start names).Ready := ⟨rfl, rfl, rfl, rfl⟩

theorem code_ofCode_prologue (added : String) :
    (Draft.ofCode prologue).code added = { recent := [.code (prologue ++ added)] } := by
  have joined : (Draft.ofCode prologue).code added = Draft.ofCode (prologue ++ added) :=
    (Draft.code_append {} prologue added).symm
  rw [joined, Draft.ofCode, Draft.code, if_neg (by simp [prologue])]

/-- After a header a scan is where it starts, but for the statements of the header. -/
theorem leads_startLine (names : NameSupply) (added : String) (plusLed : Bool) (place : Cursor) :
    Scan.Leads added ((start names).startLine place)
      (((start names).stating plusLed added).startLine place) := by
  refine ⟨rfl, rfl, ?_⟩
  show Draft.Leads added (Draft.ofCode prologue) ((Draft.ofCode prologue).code added)
  rw [code_ofCode_prologue]
  have first : Piece.Leads added _ _ := .first ""
  rw [String.append_empty, String.append_empty] at first
  exact ⟨first, rfl, rfl⟩

/-- A header that opens no literal stands after the prologue, without the carriage returns before
its line feeds. What follows it is what the source alone comes to. -/
theorem compile_append (names : NameSupply) {header : String} {front : List Char}
    (ended : header.toList = front ++ ['\n'])
    (statements : ∀ line ∈ Text.lines header.toList, line.head? ≠ some '<') (source : String) :
    ∃ rest, (compile names source).1 = prologue ++ rest ∧
      compile names (header ++ source) =
        (prologue ++ String.ofList (Text.dropReturns header.toList) ++ rest,
          (compile names source).2) := by
  have own : Text.lines header.toList = Text.lines front ++ [[]] := by
    rw [ended, Text.lines_append_feed]
    rfl
  have others : ∀ line ∈ Text.lines front, line.head? ≠ some '<' := by
    intro line member
    apply statements
    rw [own]
    exact List.mem_append_left _ member
  have split : Text.lines (header ++ source).toList =
      Text.lines front ++ Text.lines source.toList := by
    rw [String.toList_append, ended, List.append_assoc]
    exact Text.lines_append_feed front source.toList
  obtain ⟨plusLed, passed⟩ := (ready_start names).run_lines others 1
  rw [Text.flatMap_lines, ← ended] at passed
  obtain ⟨first, more, lines⟩ := List.exists_cons_of_ne_nil (Text.lines_ne_nil source.toList)
  have leads : Scan.Leads (String.ofList (Text.dropReturns header.toList)) (scan names source)
      (scan names (header ++ source)) := by
    have whole : scan names (header ++ source) =
        ((start names).stating plusLed (String.ofList (Text.dropReturns header.toList))).run
          (Signal.ofSource source) := by
      unfold scan Signal.ofSource
      rw [split, Signal.ofLines_append, Scan.run_append, passed]
      exact Scan.run_renumbered _ _ _ _
    rw [whole, scan, Signal.ofSource, lines]
    exact (leads_startLine names _ plusLed (.start 1 first)).run _
  obtain ⟨rest, alone, whole⟩ := leads.finish.render (hoisted_draft names source)
  have compiled (source : String) :
      compile names source = ((finish (scan names source)).render, (scan names source).names) := rfl
  refine ⟨rest, ?_, ?_⟩
  · simpa only [compiled] using alone
  · rw [compiled, compiled, whole, leads.names]

end Body

end ScriptedMarkup
