import ScriptedMarkup.Proofs.Draft.Basic
import ScriptedMarkup.Proofs.Scan.Capturing

/-!
# Scans between tokens

`Follows` relates a scan and a reading where a token starts: nothing is withheld there and no
capture is active. `Matches` says that both agree on the next token. Within a capture they agree on
the brace that closes it (`Scan.Captures.encloses`).
-/

namespace ScriptedMarkup

/-- Neither is a `#{` left of a place, nor is the place within one. -/
def Unled (before rest : List Char) : Prop :=
  ¬['{', '#'] <+: before ∧ ¬(before.head? = some '#' ∧ rest.head? = some '{')

namespace Scan

/-- A state between two tokens. -/
structure Rests (scan : Scan) (mode : Mode) (carried : Bool) : Prop where
  mode : scan.lexing.mode = mode
  idle : scan.lexing.capture = none
  passes : scan.lexing.withheld = 0
  carried : scan.lexing.continues = carried
  held : scan.draft.held = none

def withhold (scan : Scan) (count : Nat) : Scan :=
  { scan with lexing := { scan.lexing with withheld := count } }

/-- What a scan has produced. -/
def assembly (scan : Scan) : Assembly := ⟨scan.draft, scan.names, scan.lexing.anchor⟩

end Scan

/-- The states of a scan where a reading starts a token. -/
inductive Follows (scan : Scan) : Position → Unread → Prop where
  | outside {line : Nat} {more : List (List Char)} (rests : scan.Rests .script false) :
      Follows scan .outside (.lines line more)
  | resumed {line : Nat} {more : List (List Char)} (rests : scan.Rests .markup false) :
      Follows scan .resumed (.lines line more)
  | inside {line : Nat} {previous : Char} {before rest : List Char} {more : List (List Char)}
      {carried : Bool} (rests : scan.Rests .markup carried)
      (unled : Unled (previous :: before) rest) :
      Follows scan (.inside previous carried) (.within line (previous :: before) rest more)

/-- A scan does with what is unread what was read of it. -/
def Matches (scan : Scan) (unread : Unread) : Option (List Token × Position × List Char) → Prop
  | none => (scan.run unread.signals).lexing.capture ≠ none
  | some (tokens, next, left) =>
    ∃ later rest, Follows later next rest ∧ rest.Lined ∧ rest.text = left ∧
      scan.run unread.signals = later.run rest.signals ∧
      later.assembly = tokens.foldl Assembly.add scan.assembly

/-! ### Captures -/

/-- A scan within a capture comes to the brace that closes it, or ends within it. -/
def Encloses (scan origin : Scan) (capture : Capture) (captured : List Char) (carried : Bool)
    (unread : Unread) : Option (List Char × List Char) → Prop
  | none => (scan.run unread.signals).lexing.capture ≠ none
  | some (inner, left) =>
    ∃ (last : Scan) (place : Cursor) (line : Nat) (before rest : List Char)
      (more : List (List Char)),
      last.Captures origin capture 0 (captured ++ inner) ∧
      last.lexing.continues = (carried && !inner.contains '\n') ∧
      (Unread.within line ('}' :: before) rest more).Lined ∧
      (Unread.within line ('}' :: before) rest more).text = left ∧
      scan.run unread.signals =
        (last.step (.visit '}' place)).run (Unread.within line ('}' :: before) rest more).signals

theorem Encloses.cons {scan later origin : Scan} {capture : Capture} {captured : List Char}
    {carried : Bool} {unread next : Unread} {c : Char} {found : Option (List Char × List Char)}
    (encloses : Encloses later origin capture (captured ++ [c]) (carried && c != '\n') next found)
    (same : scan.run unread.signals = later.run next.signals) :
    Encloses scan origin capture captured carried unread
      (found.map fun (text, left) => (c :: text, left)) := by
  cases found with
  | none =>
    rw [Option.map_none, Encloses, same]
    exact encloses
  | some found =>
    obtain ⟨last, place, line, before, rest, more, captures, continues, lined, text, run⟩ := encloses
    refine ⟨last, place, line, before, rest, more, by simpa using captures, ?_, lined, text,
      same.trans run⟩
    rw [continues, List.contains_cons, Bool.not_or, Bool.and_assoc, bne, Bool.beq_comm]

theorem Scan.Captures.encloses {scan origin : Scan} {capture : Capture} {depth line : Nat}
    {captured before rest : List Char} {more : List (List Char)}
    (captures : scan.Captures origin capture depth captured)
    (lined : (Unread.within line before rest more).Lined) :
    Encloses scan origin capture captured scan.lexing.continues (.within line before rest more)
      (enclosed? depth (Unread.within line before rest more).text) := by
  induction flat : (Unread.within line before rest more).text
    generalizing scan depth captured line before rest more with
  | nil => cases rest <;> simp [Unread.text] at flat
  | cons c text ih =>
    cases rest with
    | nil =>
      obtain ⟨rfl, rfl⟩ := List.cons.inj flat
      have ends := captures.endLine
      rw [enclosed?, if_neg (by simp)]
      cases more with
      | nil =>
        rw [List.flatMap_nil, enclosed?, Option.map_none, Encloses, Unread.signals_within_nil]
        simp [Scan.step, Unread.signals, Signal.ofLines, ends.active]
      | cons next more =>
        have starts : (scan.endLine.startLine (.start (line + 1) next)).Captures origin capture
          depth (captured ++ ['\n']) := ends.startLine
        have following : (Unread.lines (line + 1) (next :: more)).Lined := lined.2
        have later := ih starts following.first (by simp [Unread.text])
        rw [ends.continues_startLine, captures.continues_endLine] at later
        rw [show braceDepth depth '\n' = depth by simp [braceDepth]]
        refine Encloses.cons (by simpa using later) ?_
        rw [Unread.signals_within_nil, Unread.signals_lines_cons]
        rfl
    | cons d rest =>
      obtain ⟨rfl, rfl⟩ := List.cons.inj flat
      rw [enclosed?]
      by_cases closes : d = '}' ∧ depth = 0
      · obtain ⟨rfl, rfl⟩ := closes
        rw [if_pos ⟨rfl, rfl⟩]
        refine ⟨scan, ⟨line, before, '}' :: rest⟩, line, before, rest, more, by simpa using captures,
          by simp, lined.tail, rfl, ?_⟩
        rw [Unread.signals_within_cons]
        rfl
      · rw [if_neg closes]
        have visited : (scan.step (.visit d ⟨line, before, d :: rest⟩)).Captures origin capture
          (braceDepth depth d) (captured ++ [d]) := captures.visit closes
        have later := ih visited lined.tail rfl
        rw [captures.continues_visit closes] at later
        have same : (scan.lexing.continues && d != '\n') = scan.lexing.continues := by
          simp [lined.ne_feed]
        refine Encloses.cons (by rw [same]; exact later) ?_
        rw [Unread.signals_within_cons]
        rfl

theorem Scan.Captures.add_of_close {scan origin : Scan} {capture : Capture} {captured : List Char}
    {carried : Bool} (captures : scan.Captures origin capture 0 captured)
    (continues : scan.lexing.continues = carried) (held : origin.draft.held = none)
    (place : Cursor) :
    (scan.step (.visit '}' place)).Rests .markup carried ∧
      (scan.step (.visit '}' place)).assembly = origin.assembly.add (.captured capture captured) := by
  obtain ⟨mode, active, level, passes, anchor, draft, names⟩ := captures
  cases capture with
  | expression =>
    rw [Scan.step_endExpression mode active passes (by omega)]
    refine ⟨⟨mode, rfl, passes, continues, ?_⟩, ?_⟩
    · rw [draft]
      exact held
    · simp [Scan.assembly, Assembly.add, draft, names, anchor, Draft.capturing]
  | bound binding =>
    rw [Scan.step_endBound mode active passes (by omega)]
    have kept : { origin.draft with held := none } = origin.draft := by rw [← held]
    refine ⟨⟨mode, rfl, passes, continues, ?_⟩, ?_⟩
    · simp [draft, Draft.capturing, Draft.release, Draft.hoist]
    · simp [Scan.assembly, Assembly.add, draft, names, anchor, Draft.capturing, Draft.release, kept,
        NameSupply.next]

end ScriptedMarkup
