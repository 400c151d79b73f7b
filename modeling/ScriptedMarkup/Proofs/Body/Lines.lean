import ScriptedMarkup.Proofs.Body.Splicing
import ScriptedMarkup.Proofs.Manuscript.LineByLine
import ScriptedMarkup.Proofs.Text.Lines

/-!
# Lines of a body

A body has a line feed for each line of its source, three more for each helper, and two of its own.
Without helpers each line of the source comes to one line of the body (`Body.lines_of_body`).
-/

namespace ScriptedMarkup

theorem Unread.lineEnds_of_signals {unread : Unread} (finished : unread.signals = []) :
    unread.lineEnds = 0 := by
  cases unread with
  | lines line more =>
    cases more with
    | nil => rfl
    | cons text more => simp [signals, Signal.ofLines, Signal.ofLine] at finished
  | within line before rest more => simp [signals] at finished

namespace Manuscript

variable {lexing : Lexing}

theorem body_finish (idle : lexing.capture = none) (manuscript : Manuscript) :
    ∃ closing ∈ closings, (manuscript.finish lexing).body =
      manuscript.body ++ (closing.toList ++ Body.epilogue.toList) := by
  unfold finish
  rw [idle]
  dsimp only
  split
  · exact ⟨"';", by decide, by simp [write, pending]⟩
  · exact ⟨"", by decide, by simp [write, pending]⟩

theorem count_finish (idle : lexing.capture = none) (manuscript : Manuscript) :
    (manuscript.finish lexing).body.count '\n' = manuscript.body.count '\n' + 1 := by
  obtain ⟨closing, closes, body⟩ := manuscript.body_finish idle
  have ended : Body.epilogue.toList.count '\n' = 1 := by decide
  rw [body, List.count_append, List.count_append, List.count_eq_zero.2 (lined_closing closes), ended]

end Manuscript

namespace Body

variable {names : NameSupply} {source : String}

theorem toList_compile (names : NameSupply) (source : String) :
    (compile names source).1.toList =
      (((Manuscript.ofText prologue).run (start names) (Signal.ofSource source)).finish
        (scan names source).lexing).body :=
  (hoisted_draft names source).toList_render.trans
    (written_finish (transcribes_run names (Signal.ofSource source)))

theorem count_compile (idle : (scan names source).lexing.capture = none) :
    (compile names source).1.toList.count '\n' + 3 * names.issued =
      2 + (source.toList.count '\n' + 1) + 3 * (compile names source).2.issued := by
  have whole : Signal.ofSource source = Signal.ofSource source ++ [] := (List.append_nil _).symm
  obtain ⟨unread, reached, finished⟩ := reached_of_ofSource_eq (start names) whole
  have account := reached.feeds (transcribes_start names)
  have started : prologue.toList.count '\n' = 1 := by decide
  have written : (Manuscript.ofText prologue).feeds (start names).lexing.capture = 1 := started
  have ended : ((start names).run (Signal.ofSource source)).lexing.capture = none := idle
  rw [ended, Unread.lineEnds_of_signals finished, Text.length_lines, written,
    Manuscript.feeds_none] at account
  rw [toList_compile, Manuscript.count_finish idle]
  change _ + 3 * names.issued + 0 = _ + 3 * (compile names source).2.issued at account
  omega

theorem atLine_start : (Manuscript.ofText prologue).AtLine 0 :=
  ⟨"'use strict';".toList, "", by decide, rfl, by decide, rfl⟩

theorem line_compile (idle : (scan names source).lexing.capture = none)
    (unissued : (compile names source).2.issued = names.issued) {earlier later : List (List Char)}
    {text : List Char} (split : Text.lines source.toList = earlier ++ text :: later) :
    let manuscript := (Manuscript.ofText prologue).run (start names)
    let before := Signal.ofLines 1 earlier
    let number := earlier.length + 1
    let within := .lineStart (.start number text) :: Signal.visits number [] text
    ∃ (own : List Char) (opening closing : String),
      (manuscript (before ++ within)).body = (manuscript before).body ++ own ∧
      (Text.splitLines (compile names source).1.toList)[number]? =
        some (opening.toList ++ own ++ closing.toList) ∧
      opening ∈ Manuscript.openings ∧ closing ∈ Manuscript.closings := by
  intro manuscript before number within
  have lined : ∀ line ∈ earlier ++ text :: later, '\n' ∉ line := by
    rw [← split]
    exact fun line member => Text.not_mem_of_mem_lines member
  have signals : Signal.ofSource source = Signal.ofLines 1 (earlier ++ text :: later) := by
    rw [Signal.ofSource, split]
  have unbound : (start names).Unbound (Signal.ofSource source) :=
    Scan.unbound_of_issued idle unissued
  rw [signals] at unbound
  obtain ⟨front, own, tail, opening, closing, visited, body, count, clean, opens, closes⟩ :=
    (transcribes_start names).writes_among atLine_start lined unbound
  obtain ⟨last, -, finished⟩ := (manuscript (Signal.ofSource source)).body_finish idle
  rw [Nat.add_comm 1] at visited
  refine ⟨own, opening, closing, visited, ?_, opens, closes⟩
  have lineClean : '\n' ∉ opening.toList ++ own ++ closing.toList := by
    simp [Manuscript.lined_opening opens, clean, Manuscript.lined_closing closes]
  have index : number = front.count '\n' + 1 := by rw [count, Nat.zero_add]
  have result : (compile names source).1.toList =
      front ++ '\n' :: (opening.toList ++ own ++ closing.toList ++
        '\n' :: (tail ++ (last.toList ++ epilogue.toList))) := by
    rw [toList_compile, finished]
    simp only [manuscript, signals, body, List.append_assoc, List.cons_append]
  rw [result, index]
  exact Text.getElem?_splitLines lineClean front _

/-- When no capture is open at the end, a body has a line feed for each line of the source, three for
each name that it takes, and two more. If it takes none, what is written while a line of the source
is read is on the next line of the body than that of the source, alone but for what opens and closes
a literal. -/
theorem lines_of_body (names : NameSupply) (source : String)
    (idle : (scan names source).lexing.capture = none) :
    let manuscript := (Manuscript.ofText prologue).run (start names)
    let result := (compile names source).1.toList
    ∃ issued, (compile names source).2.issued = names.issued + issued ∧
      result.count '\n' = 2 + (source.toList.count '\n' + 1) + 3 * issued ∧
      (issued = 0 → ∀ earlier text later, Text.lines source.toList = earlier ++ text :: later →
        let before := Signal.ofLines 1 earlier
        let number := earlier.length + 1
        let within := .lineStart (.start number text) :: Signal.visits number [] text
        ∃ own opening closing,
          (manuscript (before ++ within)).body = (manuscript before).body ++ own ∧
          (Text.splitLines result)[number]? = some (opening.toList ++ own ++ closing.toList) ∧
          opening ∈ ["", "'"] ∧ closing ∈ ["", "';", "' +"]) := by
  intro manuscript result
  obtain ⟨issued, taken⟩ := Nat.exists_eq_add_of_le
    ((start names).issued_le_run (Signal.ofSource source))
  have taken : (compile names source).2.issued = names.issued + issued := taken
  refine ⟨issued, taken, ?_, ?_⟩
  · have count := count_compile idle
    rw [taken] at count
    show (compile names source).1.toList.count '\n' = _
    omega
  · rintro rfl earlier text later split
    exact line_compile idle taken split

theorem lines_of_body_carried :
    let source := "<p>-@a +\n+$\x7bb\nc\x7d</p>\nx"
    let result := (compile {} source).1.toList
    (scan {} source).lexing.capture = none ∧ (compile {} source).2.issued = 0 ∧
      result.count '\n' = 6 ∧
      ∃ own opening closing : String,
        (Text.splitLines result)[2]? = some (opening.toList ++ own.toList ++ closing.toList) ∧
        opening ∈ ["", "'"] ∧ closing ∈ ["", "';", "' +"] := by
  intro source result
  have idle : (scan {} source).lexing.capture = none := by decide +kernel
  have unissued : (compile {} source).2.issued = 0 := by decide +kernel
  obtain ⟨issued, taken, count, lines⟩ := lines_of_body {} source idle
  obtain rfl : issued = 0 := by
    rw [unissued] at taken
    exact (Nat.zero_add issued).symm.trans taken.symm
  have feeds : source.toList.count '\n' = 3 := by decide
  rw [feeds] at count
  refine ⟨idle, unissued, count, ?_⟩
  obtain ⟨own, opening, closing, -, line, opens, closes⟩ :=
    lines rfl ["<p>-@a +".toList] "+$\x7bb".toList ["c\x7d</p>".toList, "x".toList] (by decide)
  exact ⟨String.ofList own, opening, closing, by simpa using line, opens, closes⟩

end Body

end ScriptedMarkup
