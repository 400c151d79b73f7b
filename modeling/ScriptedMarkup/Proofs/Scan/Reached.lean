import ScriptedMarkup.Body

/-!
# Reached states

A run over a source stands between two lines or within one. `Reached` holds of the states of a run,
each with the signals that led to it and what is unread there. `reached_of_ofSource_eq` finds it at
every point of a run, so that an invariant of `Reached` is one of every run.
-/

namespace ScriptedMarkup

namespace Signal

theorem ofLines_append (first second : List (List Char)) (line : Nat) :
    ofLines line (first ++ second) = ofLines line first ++ ofLines (line + first.length) second := by
  induction first generalizing line with
  | nil => rfl
  | cons text first ih =>
    rw [List.cons_append, ofLines, ofLines, ih, List.append_assoc, List.length_cons,
      Nat.add_comm first.length, ← Nat.add_assoc]

end Signal

/-- What a run over a source has not read yet. -/
inductive Unread where
  /-- Whole lines, from number `line` on. -/
  | lines (line : Nat) (more : List (List Char))
  /-- The end of a line that starts with the reverse of `before`, and the lines after it. -/
  | within (line : Nat) (before rest : List Char) (more : List (List Char))

namespace Unread

def signals : Unread → List Signal
  | lines line more => Signal.ofLines line more
  | within line before rest more =>
    Signal.visits line before rest ++
      .lineEnd (.final line (before.reverse ++ rest)) :: Signal.ofLines (line + 1) more

def before : Unread → List Char
  | lines _ _ => []
  | within _ before _ _ => before

def rest : Unread → List Char
  | lines _ _ => []
  | within _ _ rest _ => rest

/-- The characters still to come. Every line ends with a line feed. -/
def text : Unread → List Char
  | lines _ more => more.flatMap (· ++ ['\n'])
  | within _ _ rest more => rest ++ '\n' :: more.flatMap (· ++ ['\n'])

theorem signals_lines_cons (line : Nat) (text : List Char) (more : List (List Char)) :
    (lines line (text :: more)).signals =
      .lineStart (.start line text) :: (within line [] text more).signals := by
  simp [signals, Signal.ofLines, Signal.ofLine]

theorem signals_within_cons (line : Nat) (before : List Char) (c : Char) (rest : List Char)
    (more : List (List Char)) :
    (within line before (c :: rest) more).signals =
      .visit c ⟨line, before, c :: rest⟩ :: (within line (c :: before) rest more).signals := by
  simp [signals, Signal.visits]

theorem signals_within_nil (line : Nat) (before : List Char) (more : List (List Char)) :
    (within line before [] more).signals =
      .lineEnd (.final line before.reverse) :: (lines (line + 1) more).signals := by
  simp [signals, Signal.visits]

theorem eq_within_of_visit {unread : Unread} {c : Char} {place : Cursor} {more : List Signal}
    (next : unread.signals = .visit c place :: more) :
    ∃ line before rest texts, unread = within line before (c :: rest) texts ∧
      place = ⟨line, before, c :: rest⟩ := by
  cases unread with
  | lines line texts =>
    cases texts with
    | nil => simp [signals, Signal.ofLines] at next
    | cons text texts =>
      rw [signals_lines_cons] at next
      exact absurd (List.cons.inj next).1 (by simp)
  | within line before rest texts =>
    cases rest with
    | nil =>
      rw [signals_within_nil] at next
      exact absurd (List.cons.inj next).1 (by simp)
    | cons d rest =>
      rw [signals_within_cons] at next
      obtain ⟨rfl, rfl⟩ := Signal.visit.inj (List.cons.inj next).1
      exact ⟨line, before, rest, texts, rfl, rfl⟩

theorem text_lines_cons (line : Nat) (first : List Char) (more : List (List Char)) :
    (lines line (first :: more)).text = (within line [] first more).text := by
  simp [text]

end Unread

/-- No line holds a line feed. -/
def Unread.Lined : Unread → Prop
  | lines _ more => ∀ text ∈ more, '\n' ∉ text
  | within _ _ rest more => '\n' ∉ rest ∧ ∀ text ∈ more, '\n' ∉ text

namespace Unread.Lined

variable {line : Nat} {before rest text : List Char} {c : Char} {more : List (List Char)}

theorem tail (lined : (within line before (c :: rest) more).Lined) :
    (within line (c :: before) rest more).Lined :=
  ⟨fun member => lined.1 (List.mem_cons_of_mem _ member), lined.2⟩

theorem first (lined : (lines line (text :: more)).Lined) : (within line [] text more).Lined :=
  ⟨lined text List.mem_cons_self, fun _ member => lined _ (List.mem_cons_of_mem _ member)⟩

theorem ne_feed (lined : (within line before (c :: rest) more).Lined) : c ≠ '\n' :=
  fun same => lined.1 (same ▸ List.mem_cons_self)

end Unread.Lined

/-- The states of a run over a source. -/
inductive Reached (start : Scan) (source : String) : List Signal → Unread → Scan → Prop where
  | start : Reached start source [] (.lines 1 (Text.lines source.toList)) start
  | lineStart {seen : List Signal} {scan : Scan} {line : Nat} {text : List Char}
      {more : List (List Char)} (reached : Reached start source seen (.lines line (text :: more)) scan) :
      Reached start source (seen ++ [.lineStart (.start line text)]) (.within line [] text more)
        (scan.startLine (.start line text))
  | visit {seen : List Signal} {scan : Scan} {line : Nat} {before : List Char} {c : Char}
      {rest : List Char} {more : List (List Char)}
      (reached : Reached start source seen (.within line before (c :: rest) more) scan) :
      Reached start source (seen ++ [.visit c ⟨line, before, c :: rest⟩])
        (.within line (c :: before) rest more) (scan.step (.visit c ⟨line, before, c :: rest⟩))
  | lineEnd {seen : List Signal} {scan : Scan} {line : Nat} {before : List Char}
      {more : List (List Char)} (reached : Reached start source seen (.within line before [] more) scan) :
      Reached start source (seen ++ [.lineEnd (.final line before.reverse)])
        (.lines (line + 1) more) scan.endLine

namespace Reached

variable {start scan : Scan} {source : String} {seen : List Signal} {unread : Unread}

theorem step {signal : Signal} {more : List Signal}
    (reached : Reached start source seen unread scan) (next : unread.signals = signal :: more) :
    ∃ later, Reached start source (seen ++ [signal]) later (scan.step signal) ∧
      later.signals = more := by
  cases unread with
  | lines line texts =>
    cases texts with
    | nil => simp [Unread.signals, Signal.ofLines] at next
    | cons text texts =>
      rw [Unread.signals_lines_cons] at next
      obtain ⟨rfl, rfl⟩ := List.cons.inj next
      exact ⟨_, reached.lineStart, rfl⟩
  | within line before rest texts =>
    cases rest with
    | nil =>
      rw [Unread.signals_within_nil] at next
      obtain ⟨rfl, rfl⟩ := List.cons.inj next
      exact ⟨_, reached.lineEnd, rfl⟩
    | cons c rest =>
      rw [Unread.signals_within_cons] at next
      obtain ⟨rfl, rfl⟩ := List.cons.inj next
      exact ⟨_, reached.visit, rfl⟩

theorem run {taken more : List Signal} (reached : Reached start source seen unread scan)
    (next : unread.signals = taken ++ more) :
    ∃ later, Reached start source (seen ++ taken) later (scan.run taken) ∧
      later.signals = more := by
  induction taken generalizing seen scan unread with
  | nil => exact ⟨unread, by simpa using reached, by simpa using next⟩
  | cons signal taken ih =>
    obtain ⟨between, reached, next⟩ := reached.step next
    obtain ⟨later, reached, left⟩ := ih reached next
    exact ⟨later, by simpa using reached, left⟩

theorem eq_run (reached : Reached start source seen unread scan) : scan = start.run seen := by
  induction reached with
  | start => rfl
  | lineStart _ ih | visit _ ih | lineEnd _ ih => rw [Scan.run_append, ← ih]; rfl

end Reached

/-- Every point of a run over a source is reached. -/
theorem reached_of_ofSource_eq (start : Scan) {source : String} {seen more : List Signal}
    (split : Signal.ofSource source = seen ++ more) :
    ∃ unread, Reached start source seen unread (start.run seen) ∧ unread.signals = more := by
  have reached : Reached start source [] (.lines 1 (Text.lines source.toList)) start := .start
  exact reached.run split

/-- A character of a run is visited at its place. -/
theorem reached_of_visit (start : Scan) {source : String} {seen more : List Signal} {c : Char}
    {place : Cursor} (split : Signal.ofSource source = seen ++ .visit c place :: more) :
    ∃ line before rest texts, place = ⟨line, before, c :: rest⟩ ∧
      Reached start source seen (.within line before (c :: rest) texts) (start.run seen) := by
  obtain ⟨unread, reached, next⟩ := reached_of_ofSource_eq start split
  obtain ⟨line, before, rest, texts, rfl, same⟩ := Unread.eq_within_of_visit next
  exact ⟨line, before, rest, texts, same, reached⟩

end ScriptedMarkup
