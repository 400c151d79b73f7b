import Mathlib.Data.List.Forall2
import ScriptedMarkup.Proofs.Scan.Unfinished
import ScriptedMarkup.Proofs.Text.Lines

/-!
# How a source is presented

A source is presented line by line: the start of a line, its characters in order, each at a place
that shows what stands around it (`Cursor.Shows`), and its end. The lines are those of the source,
each without one carriage return at its end (`Signal.presented`). The signals depend on the source
alone and not on what a reader does with them.
-/

namespace ScriptedMarkup

/-- A text without the carriage return that it ends with, if it does. -/
def Text.Trimmed (whole trimmed : List Char) : Prop :=
  whole = trimmed ++ ['\r'] ∨ whole = trimmed ∧ whole.getLast? ≠ some '\r'

theorem Text.trimmed_dropFinal (text : List Char) : Text.Trimmed text (Text.dropFinal '\r' text) := by
  unfold Text.dropFinal
  split
  · next ends =>
    obtain ⟨front, rfl⟩ := List.getLast?_eq_some_iff.1 ends
    exact .inl (by rw [List.dropLast_concat])
  · next other => exact .inr ⟨rfl, other⟩

/-- A place at character number `index` of a line: what it answers is what stands around it. -/
structure Cursor.Shows (place : Cursor) (line : Nat) (text : List Char) (index : Nat) (c : Char) :
    Prop where
  number : place.line = line
  whole : text.take index ++ c :: place.following = text
  ahead : ∀ word, place.ahead word = true ↔ word <+: place.following
  behind : ∀ word, place.behind word = true ↔ word <:+ text.take index
  first : place.isFirst = true ↔ index = 0
  last : place.isLast = true ↔ index + 1 = text.length

namespace Signal

/-- The signals of one line: its start, its characters in order, and its end. -/
def Presents (line : Nat) (text : List Char) (signals : List Signal) : Prop :=
  ∃ opening visits closing,
    signals = .lineStart opening :: visits ++ [.lineEnd closing] ∧
    opening.line = line ∧ closing.line = line ∧ visits.length = text.length ∧
    ∀ index c, text[index]? = some c →
      ∃ place : Cursor, visits[index]? = some (.visit c place) ∧ place.Shows line text index c

/-! ### Lines -/

theorem shows_of_split (line : Nat) (front rest : List Char) (c : Char) :
    (Cursor.mk line front.reverse (c :: rest)).Shows line (front ++ c :: rest) front.length c where
  number := rfl
  whole := by rw [List.take_left]; rfl
  ahead word := by simp [Cursor.ahead_iff, Cursor.following]
  behind word := by rw [Cursor.behind_iff, List.take_left, List.reverse_reverse]
  first := by rw [isFirst_iff, List.reverse_eq_nil_iff, List.length_eq_zero_iff]
  last := by
    rw [isLast_iff, ← List.length_eq_zero_iff, List.length_append, List.length_cons]
    omega

theorem length_visits (line : Nat) (before rest : List Char) :
    (visits line before rest).length = rest.length := by
  induction rest generalizing before with
  | nil => rfl
  | cons c rest ih => rw [visits, List.length_cons, ih, List.length_cons]

theorem getElem?_visits (line : Nat) (before front rest : List Char) (c : Char) :
    (visits line before (front ++ c :: rest))[front.length]? =
      some (.visit c ⟨line, front.reverse ++ before, c :: rest⟩) := by
  induction front generalizing before with
  | nil => rfl
  | cons first front ih =>
    rw [List.cons_append, visits, List.length_cons, List.getElem?_cons_succ, ih, List.reverse_cons,
      List.append_assoc, List.singleton_append]

theorem presents_ofLine (line : Nat) (text : List Char) : Presents line text (ofLine line text) := by
  refine ⟨_, visits line [] text, _, rfl, rfl, rfl, length_visits line [] text, ?_⟩
  intro index c found
  obtain ⟨front, rest, rfl, rfl⟩ : ∃ front rest, text = front ++ c :: rest ∧ front.length = index := by
    obtain ⟨inside, rfl⟩ := List.getElem?_eq_some_iff.1 found
    refine ⟨text.take index, text.drop (index + 1), ?_, List.length_take_of_le (Nat.le_of_lt inside)⟩
    rw [← List.drop_eq_getElem_cons inside, List.take_append_drop]
  have visited := getElem?_visits line [] front rest c
  rw [List.append_nil] at visited
  exact ⟨_, visited, shows_of_split line front rest c⟩

theorem presents_ofLines (line : Nat) (texts : List (List Char)) :
    ∃ groups, ofLines line texts = groups.flatten ∧
      List.Forall₂ (fun entry group => Presents entry.2 entry.1 group) (texts.zipIdx line) groups := by
  induction texts generalizing line with
  | nil => exact ⟨[], rfl, .nil⟩
  | cons text more ih =>
    obtain ⟨groups, signals, presents⟩ := ih (line + 1)
    exact ⟨ofLine line text :: groups, by rw [ofLines, signals, List.flatten_cons],
      .cons (presents_ofLine line text) presents⟩

/-! ### Characters -/

theorem spelled_visits (line : Nat) (before rest : List Char) :
    spelled (visits line before rest) = rest := by
  induction rest generalizing before with
  | nil => rfl
  | cons c rest ih => rw [visits, spelled, ih]

theorem spelled_ofLines (line : Nat) (texts : List (List Char)) :
    spelled (ofLines line texts) = texts.flatMap (· ++ ['\n']) := by
  induction texts generalizing line with
  | nil => rfl
  | cons text more ih =>
    rw [ofLines, spelled_append, ih, ofLine, List.cons_append, spelled, spelled_append,
      spelled_visits, List.flatMap_cons]
    rfl

theorem flatMap_feeds {texts : List (List Char)} (nonempty : texts ≠ []) :
    texts.flatMap (· ++ ['\n']) = ['\n'].intercalate texts ++ ['\n'] := by
  induction texts with
  | nil => exact absurd rfl nonempty
  | cons text more ih =>
    cases more with
    | nil => simp
    | cons next more =>
      rw [List.flatMap_cons, ih (List.cons_ne_nil next more), List.intercalate_cons_cons]
      simp

/-- Each line of a source is presented once and in order, numbered from 1. The lines are what the
line feeds part the source into, each without one carriage return at its end, and the characters
that are visited spell them. -/
theorem presented (source : String) :
    ∃ (wholes texts : List (List Char)) (groups : List (List Signal)),
      ['\n'].intercalate wholes = source.toList ∧ (∀ whole ∈ wholes, '\n' ∉ whole) ∧
      texts.length = source.toList.count '\n' + 1 ∧ List.Forall₂ Text.Trimmed wholes texts ∧
      ofSource source = groups.flatten ∧
      List.Forall₂ (fun entry group => Presents entry.2 entry.1 group) (texts.zipIdx 1) groups ∧
      spelled (ofSource source) = ['\n'].intercalate texts ++ ['\n'] := by
  obtain ⟨groups, signals, presents⟩ := presents_ofLines 1 (Text.lines source.toList)
  refine ⟨Text.splitLines source.toList, Text.lines source.toList, groups,
    Text.intercalate_splitLines _, fun _ => Text.not_mem_of_mem_splitLines, Text.length_lines _, ?_,
    signals, presents, ?_⟩
  · exact List.forall₂_map_right_iff.2 (List.forall₂_same.2 fun text _ => Text.trimmed_dropFinal text)
  · rw [ofSource, spelled_ofLines, flatMap_feeds (Text.lines_ne_nil _)]

example : Text.lines ['a', '\r', '\r', '\n', '\r', 'b'] = [['a', '\r'], ['\r', 'b']] := by decide

end Signal

end ScriptedMarkup
