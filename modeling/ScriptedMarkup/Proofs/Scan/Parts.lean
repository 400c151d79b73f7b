import ScriptedMarkup.Proofs.Scan.Reached
import ScriptedMarkup.Proofs.Text.Lines

/-!
# Sources scanned in parts

A source that is cut at a line feed gives the signals of its first part and then those of the second,
further down (`Signal.ofSource_parts`). A scan never looks at the number of a line (`Scan.step_below`),
so it goes through the two parts as through the whole (`Scan.run_parts`): all that one part leaves to
the next is in the scan itself.
-/

namespace ScriptedMarkup

/-- The same place on a line further down. -/
def Cursor.below (lines : Nat) (place : Cursor) : Cursor := { place with line := place.line + lines }

namespace Signal

/-- The same signal from a line further down. -/
def below (lines : Nat) : Signal → Signal
  | lineStart place => lineStart (place.below lines)
  | visit c place => visit c (place.below lines)
  | lineEnd place => lineEnd (place.below lines)

theorem visits_below (lines line : Nat) (before rest : List Char) :
    visits (line + lines) before rest = (visits line before rest).map (below lines) := by
  induction rest generalizing before with
  | nil => rfl
  | cons c rest ih =>
    rw [visits, visits, List.map_cons, ih]
    rfl

theorem ofLine_below (lines line : Nat) (text : List Char) :
    ofLine (line + lines) text = (ofLine line text).map (below lines) := by
  rw [ofLine, ofLine, List.map_append, List.map_cons, visits_below]
  rfl

theorem ofLines_below (lines line : Nat) (texts : List (List Char)) :
    ofLines (line + lines) texts = (ofLines line texts).map (below lines) := by
  induction texts generalizing line with
  | nil => rfl
  | cons text more ih =>
    rw [ofLines, ofLines, List.map_append, ofLine_below, Nat.add_right_comm, ih]

/-- The second part has the signals that it has by itself, but for the numbers of its lines. -/
theorem ofSource_parts (first second : String) :
    ofSource (first ++ "\n" ++ second) =
      ofSource first ++ (ofSource second).map (below (first.toList.count '\n' + 1)) := by
  have feed : (first ++ "\n" ++ second).toList = first.toList ++ '\n' :: second.toList := by
    rw [String.toList_append, String.toList_append, List.append_assoc]
    rfl
  rw [ofSource, feed, Text.lines_append_feed, ofLines_append, Text.length_lines, ofLines_below]
  rfl

theorem line_ofSource (source : String) :
    (ofSource source).head?.map (·.place.line) = some 1 := by
  obtain ⟨text, more, lines⟩ := List.exists_cons_of_ne_nil (Text.lines_ne_nil source.toList)
  rw [ofSource, lines]
  rfl

end Signal

namespace Scan

variable (scan : Scan)

theorem step_below (lines : Nat) (signal : Signal) :
    scan.step (signal.below lines) = scan.step signal := by
  cases signal <;> rfl

theorem run_below (lines : Nat) (signals : List Signal) :
    scan.run (signals.map (Signal.below lines)) = scan.run signals := by
  induction signals generalizing scan with
  | nil => rfl
  | cons signal more ih => rw [List.map_cons, run_cons, run_cons, step_below, ih]

theorem states_below (lines : Nat) (signals : List Signal) :
    scan.states (signals.map (Signal.below lines)) = scan.states signals := by
  induction signals generalizing scan with
  | nil => rfl
  | cons signal more ih => rw [List.map_cons, states, states, step_below, ih]

theorem states_append (first second : List Signal) :
    scan.states (first ++ second) = scan.states first ++ (scan.run first).states second := by
  induction first generalizing scan with
  | nil => rfl
  | cons signal more ih =>
    rw [List.cons_append, states, states, ih]
    rfl

/-- A scan of two parts, one after the other and from any state, goes through the same states as a
scan of the whole. The signals differ in nothing but the numbers of lines, which start again at 1 in
the second part. -/
theorem run_parts (first second : String) :
    (scan.run (Signal.ofSource first)).run (Signal.ofSource second) =
        scan.run (Signal.ofSource (first ++ "\n" ++ second)) ∧
      scan.states (Signal.ofSource first) ++
          (scan.run (Signal.ofSource first)).states (Signal.ofSource second) =
        scan.states (Signal.ofSource (first ++ "\n" ++ second)) ∧
      Signal.ofSource first ++
          (Signal.ofSource second).map (Signal.below (first.toList.count '\n' + 1)) =
        Signal.ofSource (first ++ "\n" ++ second) ∧
      (Signal.ofSource second).head?.map (·.place.line) = some 1 := by
  rw [Signal.ofSource_parts]
  refine ⟨?_, ?_, rfl, Signal.line_ofSource second⟩
  · rw [run_append, run_below]
  · rw [states_append, states_below]

end Scan

end ScriptedMarkup
