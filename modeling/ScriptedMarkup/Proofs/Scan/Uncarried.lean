import ScriptedMarkup.Proofs.Scan.Issued
import ScriptedMarkup.Proofs.Scan.Spelling

/-!
# Spelling of a source

Line by line, what a run from nothing has produced spells its source (`Scan.spelled_of_source`). A
carriage return at the end of a line is not a part of the line, and every line ends with a line
feed.
-/

namespace ScriptedMarkup

/-- A line without the plus signs that carry a literal on to it, and on past it. -/
def Text.uncarried (leading trailing : Bool) (line : List Char) : List Char :=
  let shown := if leading && line.head? == some '+' then line.tail else line
  if trailing then dropFinal '+' shown else shown

namespace Scan

/-- A scan with nothing before it. -/
def bare (names : NameSupply) : Scan := { draft := .ofCode "", names }

/-- The text of lines without the plus signs that carry literals on. Every line ends with a line
feed. -/
def uncarried (scan : Scan) (line : Nat) : List (List Char) → List Char
  | [] => []
  | text :: more =>
    let read := (scan.startLine (.start line text)).run (Signal.visits line [] text)
    Text.uncarried scan.inMarkup read.inMarkup text ++
      '\n' :: read.endLine.uncarried (line + 1) more

variable {bodyOf : String → String} {scan : Scan} {before rest text : List Char}

namespace Spells

theorem startLine {shown : List Char} (spells : scan.Spells bodyOf [] [] text) (line : Nat) :
    (scan.startLine (.start line shown)).Spells bodyOf [] shown text := by
  have passes := spells.phase.passes_at_end
  have reads := spells.reads
  rw [List.take_nil] at reads
  refine ⟨spells.phase.startLine _ _, ?_, ?_, dashed_nil shown passes⟩
  · show Reads bodyOf _ (text ++ shown.take scan.lexing.withheld)
    rw [passes, List.take_zero]
    exact reads.of_same rfl rfl
  · intro _ plus
    show (shown.head? == some '+') = true
    rw [plus]
    rfl

theorem endLine (spells : scan.Spells bodyOf before [] text) :
    scan.endLine.Spells bodyOf [] [] (text ++ ['\n']) := by
  have phase := spells.phase.endLine
  have reads := spells.reads
  rw [List.take_nil, List.append_nil] at reads
  refine ⟨phase, ?_, fun _ plus => absurd plus (by simp), dashed_nil [] phase.passes_at_end⟩
  rw [List.take_nil, List.append_nil]
  exact spells.phase.reads_endLine reads

theorem visits (line : Nat) (spells : scan.Spells bodyOf before rest text)
    (clear : scan.ambiguous (Signal.visits line before rest) = false)
    (agrees : ∀ helper ∈ (scan.run (Signal.visits line before rest)).draft.helpers,
      bodyOf helper.name = helper.body)
    (inner : scan.inMarkup = true → before = [] → rest.head? ≠ some '+') :
    let read := scan.run (Signal.visits line before rest)
    read.Spells bodyOf (rest.reverse ++ before) []
      (text ++ if read.inMarkup then Text.dropFinal '+' rest else rest) := by
  induction rest generalizing scan before text with
  | nil =>
    have kept : (if scan.inMarkup then Text.dropFinal '+' [] else []) = [] := by
      simp [Text.dropFinal]
    show scan.Spells bodyOf before [] (text ++ if scan.inMarkup then Text.dropFinal '+' [] else [])
    rwa [kept, List.append_nil]
  | cons c rest ih =>
    rw [Signal.visits, run_cons] at agrees ⊢
    rw [Signal.visits, ambiguous, Bool.or_eq_false_iff] at clear
    obtain ⟨here, later⟩ := clear
    have turn := spells.phase.turn line
    by_cases edge : scan.AtEdge before rest c
    · obtain ⟨markup, rfl, place⟩ := edge
      have last : rest = [] := place.resolve_left fun first => inner markup first rfl
      subst last
      obtain ⟨after, still⟩ := spells.edge ⟨markup, rfl, .inr rfl⟩
      have kept : (if (scan.step (.visit '+' ⟨line, before, ['+']⟩)).inMarkup then
          Text.dropFinal '+' ['+'] else ['+']) = [] := by
        rw [still]
        rfl
      show Spells bodyOf _ _ _ (text ++ if Scan.inMarkup _ then _ else _)
      rw [Signal.visits, run_nil, kept, List.append_nil]
      exact after
    · have after := spells.visit here
        (fun helper member => agrees helper ((helpers_run _ _).subset member)) edge
      have read := ih after later agrees fun _ first => absurd first (List.cons_ne_nil _ _)
      have kept (final : Scan)
          (same : rest = [] → final = scan.step (.visit c ⟨line, before, c :: rest⟩)) :
          (if final.inMarkup then Text.dropFinal '+' (c :: rest) else c :: rest) =
            [c] ++ if final.inMarkup then Text.dropFinal '+' rest else rest := by
        by_cases more : rest = []
        · -- A plus sign that ends the line is kept only where no literal is open.
          subst more
          split
          · next markup =>
            rw [same rfl] at markup
            have other : c ≠ '+' := fun plus =>
              edge ⟨turn.inMarkup_plus plus markup, plus, .inr rfl⟩
            simp [Text.dropFinal, other]
          · rfl
        · rw [Text.dropFinal_cons more]
          split <;> rfl
      intro final
      have shown := kept final (by rintro rfl; rfl)
      rw [shown, List.reverse_cons, List.append_assoc, ← List.append_assoc text]
      exact read

theorem line {shown : List Char} (spells : scan.Spells bodyOf [] shown text) (line : Nat)
    (clear : scan.ambiguous (Signal.visits line [] shown) = false)
    (agrees : ∀ helper ∈ (scan.run (Signal.visits line [] shown)).draft.helpers,
      bodyOf helper.name = helper.body) :
    let read := scan.run (Signal.visits line [] shown)
    read.Spells bodyOf shown.reverse []
      (text ++ Text.uncarried scan.inMarkup read.inMarkup shown) := by
  by_cases leads : scan.inMarkup = true ∧ shown.head? = some '+'
  · obtain ⟨markup, plus⟩ := leads
    obtain ⟨rest, rfl⟩ := List.head?_eq_some_iff.1 plus
    obtain ⟨after, -⟩ := spells.edge ⟨markup, rfl, .inl rfl⟩
    rw [Signal.visits, ambiguous, Bool.or_eq_false_iff] at clear
    rw [Signal.visits, run_cons] at agrees ⊢
    have read := after.visits line clear.2 agrees fun _ first => absurd first (List.cons_ne_nil _ _)
    intro final
    rw [markup, List.reverse_cons]
    exact read
  · have read := spells.visits line clear agrees fun markup _ plus => leads ⟨markup, plus⟩
    have kept : (scan.inMarkup && shown.head? == some '+') = false := by
      simpa using leads
    intro final
    rw [List.append_nil] at read
    rw [Text.uncarried, kept]
    exact read

theorem lines {line : Nat} {more : List (List Char)} (spells : scan.Spells bodyOf [] [] text)
    (clear : scan.ambiguous (Signal.ofLines line more) = false)
    (agrees : ∀ helper ∈ (scan.run (Signal.ofLines line more)).draft.helpers,
      bodyOf helper.name = helper.body) :
    (scan.run (Signal.ofLines line more)).Spells bodyOf [] []
      (text ++ scan.uncarried line more) := by
  induction more generalizing scan line text with
  | nil => rwa [uncarried, List.append_nil]
  | cons shown more ih =>
    have run : scan.run (Signal.ofLines line (shown :: more)) =
        ((scan.startLine (.start line shown)).run (Signal.visits line [] shown)).endLine.run
          (Signal.ofLines (line + 1) more) := by
      simp [Signal.ofLines, Signal.ofLine, run_append, step]
    have split : scan.ambiguous (Signal.ofLines line (shown :: more)) =
        ((scan.startLine (.start line shown)).ambiguous (Signal.visits line [] shown) ||
          ((scan.startLine (.start line shown)).run (Signal.visits line [] shown)).endLine.ambiguous
            (Signal.ofLines (line + 1) more)) := by
      simp [Signal.ofLines, Signal.ofLine, ambiguous, ambiguous_append]
    rw [split, Bool.or_eq_false_iff] at clear
    rw [run] at agrees ⊢
    have read := (spells.startLine line).line line clear.1 fun helper member => by
      have ended := (helpers_run _ [.lineEnd (.final line shown)]).subset member
      exact agrees helper ((helpers_run _ _).subset ended)
    have ended := ih read.endLine clear.2 agrees
    rw [List.append_assoc, List.append_assoc] at ended
    exact ended

end Spells

/-- What a run from nothing has produced spells its source, without the plus signs that carry
literals on, when it ends outside of captures and no call is ambiguous. -/
theorem spelled_of_source {names : NameSupply} {source : String}
    (closed : ((bare names).run (Signal.ofSource source)).lexing.capture = none)
    (clear : (bare names).ambiguous (Signal.ofSource source) = false) :
    let draft := ((bare names).run (Signal.ofSource source)).draft
    draft.spelled draft.bodyOf = (bare names).uncarried 1 (Text.lines source.toList) := by
  intro draft
  have agrees : ∀ helper ∈ draft.helpers, draft.bodyOf helper.name = helper.body := fun helper =>
    Draft.bodyOf_of_mem (nodup_names_run rfl _)
  have started : Spells draft.bodyOf (bare names) [] [] [] :=
    ⟨phase_initial, .idle rfl rfl, fun _ plus => absurd plus (by simp), dashed_nil [] rfl⟩
  have spelled := (started.lines clear agrees).reads.of_idle closed
  rwa [List.nil_append, List.take_nil, List.append_nil] at spelled

theorem spelled_of_source_carried :
    ((bare {}).run (Signal.ofSource "<p #\x7bb\x7d -@a>+\n+c$\x7bd\x7d")).lexing.capture = none ∧
      (bare {}).ambiguous (Signal.ofSource "<p #\x7bb\x7d -@a>+\n+c$\x7bd\x7d") = false ∧
      let draft := ((bare {}).run (Signal.ofSource "<p #\x7bb\x7d -@a>+\n+c$\x7bd\x7d")).draft
      draft.spelled draft.bodyOf = "<p #\x7bb\x7d -@a>\nc$\x7bd\x7d\n".toList := by
  have closed : ((bare {}).run
      (Signal.ofSource "<p #\x7bb\x7d -@a>+\n+c$\x7bd\x7d")).lexing.capture = none := by
    decide +kernel
  have clear : (bare {}).ambiguous
      (Signal.ofSource "<p #\x7bb\x7d -@a>+\n+c$\x7bd\x7d") = false := by
    decide +kernel
  refine ⟨closed, clear, (spelled_of_source closed clear).trans ?_⟩
  decide +kernel

end Scan

end ScriptedMarkup
