import ScriptedMarkup.Proofs.Scan.Reached
import ScriptedMarkup.Proofs.Scan.Step

/-!
# Phases of a run

The lexical states that a run can be in, each with what it still has to read of the line. A visit
in a phase takes one of the turns of `Turn` and leaves the scan in a phase again, so every state of
a run that starts in one is in one (`Reached.phase`).
-/

namespace ScriptedMarkup

/-- The characters of a token that is written already: the rest of an attribute name, or the
second `@` of a pair. -/
def Spent (before skipped : List Char) : Prop :=
  (∀ c ∈ skipped, Shorthand.continuesName c = true) ∨ skipped = ['@'] ∧ before.head? = some '@'

/-- How an attribute call is written after its `@`, with `before` left of that. -/
inductive AttributeCall.Written (before : List Char) : AttributeCall → List Char → Prop where
  | all : Written before .all ['@']
  | html (name : List Char) (named : ∀ c ∈ name, Shorthand.continuesName c = true)
      (plain : before.head? ≠ some '-') : Written before (.html (String.ofList name)) name
  | pop (name : List Char) (named : ∀ c ∈ name, Shorthand.continuesName c = true)
      (dashed : before.head? = some '-') : Written before (.pop (String.ofList name)) name

theorem AttributeCall.Written.spent {before skipped : List Char} {call : AttributeCall}
    (written : call.Written before skipped) : Spent ('@' :: before) skipped := by
  cases written with
  | all => exact .inr ⟨rfl, rfl⟩
  | html _ named | pop _ named => exact .inl named

/-- The lexical states of a run at a place of a line. -/
inductive Phase (lexing : Lexing) (before rest : List Char) : Prop where
  | script (mode : lexing.mode = .script) (idle : lexing.capture = none) (level : lexing.depth = 0)
      (passes : lexing.withheld = 0)
  | markup (mode : lexing.mode = .markup) (idle : lexing.capture = none) (level : lexing.depth = 0)
      (skipped left : List Char) (split : rest = skipped ++ left)
      (withheld : lexing.withheld = skipped.length) (spent : Spent before skipped)
  | sigil (capture : Capture) (mode : lexing.mode = .markup)
      (active : lexing.capture = some capture) (level : lexing.depth = 0)
      (withheld : lexing.withheld = 1) (brace : rest.head? = some '{')
  | capturing (capture : Capture) (mode : lexing.mode = .markup)
      (active : lexing.capture = some capture) (level : 0 < lexing.depth)
      (passes : lexing.withheld = 0)

/-- What a scan can do about a character of a line, with `before` left of it and `rest` after. -/
inductive Turn (scan : Scan) (before : List Char) : Char → List Char → Scan → Prop where
  | statement (c : Char) (rest : List Char) (mode : scan.lexing.mode = .script)
      (idle : scan.lexing.capture = none) (passes : scan.lexing.withheld = 0)
      (other : ¬(c = '<' ∧ before = [])) :
      Turn scan before c rest { scan with draft := scan.draft.codeChar c }
  | opening (rest : List Char) (mode : scan.lexing.mode = .script)
      (idle : scan.lexing.capture = none) (passes : scan.lexing.withheld = 0)
      (first : before = []) :
      Turn scan before '<' rest
        { scan with
          lexing := { scan.lexing with mode := .markup, anchor := scan.draft.size }
          draft := (scan.draft.push .openLiteral).textChar '<' }
  | literal (c : Char) (rest : List Char) (mode : scan.lexing.mode = .markup)
      (idle : scan.lexing.capture = none) (passes : scan.lexing.withheld = 0) :
      Turn scan before c rest { scan with draft := scan.draft.textChar c }
  | lead (rest : List Char) (mode : scan.lexing.mode = .markup)
      (idle : scan.lexing.capture = none) (passes : scan.lexing.withheld = 0)
      (first : before = []) : Turn scan before '+' rest scan
  | carry (rest : List Char) (mode : scan.lexing.mode = .markup)
      (idle : scan.lexing.capture = none) (passes : scan.lexing.withheld = 0)
      (last : rest = []) :
      Turn scan before '+' rest { scan with lexing := { scan.lexing with continues := true } }
  | write (call : AttributeCall) (skipped left : List Char) (mode : scan.lexing.mode = .markup)
      (idle : scan.lexing.capture = none) (passes : scan.lexing.withheld = 0)
      (written : call.Written before skipped)
      (read : ∀ line, Act.read scan.lexing '@' ⟨line, before, '@' :: (skipped ++ left)⟩ =
        .shorthand (.write call (skipped.length + 1))) :
      Turn scan before '@' (skipped ++ left)
        { scan with
          lexing := { scan.lexing with withheld := skipped.length }
          draft := scan.draft.writeCall call }
  | sigil (capture : Capture) (c : Char) (rest : List Char) (mode : scan.lexing.mode = .markup)
      (idle : scan.lexing.capture = none) (passes : scan.lexing.withheld = 0)
      (sigil : Capture.ofSigil? c = some capture) :
      Turn scan before c ('{' :: rest)
        { scan with
          lexing := { scan.lexing with capture := some capture, depth := 0, withheld := 1 }
          draft := scan.draft.capturing capture "" }
  | withheld (c : Char) (rest : List Char) (mode : scan.lexing.mode = .markup)
      (idle : scan.lexing.capture = none) (left : Nat)
      (withheld : scan.lexing.withheld = left + 1) :
      Turn scan before c rest { scan with lexing := { scan.lexing with withheld := left } }
  | brace (capture : Capture) (rest : List Char) (mode : scan.lexing.mode = .markup)
      (active : scan.lexing.capture = some capture) (withheld : scan.lexing.withheld = 1) :
      Turn scan before '{' rest
        { scan with
          lexing := { scan.lexing with depth := scan.lexing.depth + 1, withheld := 0 } }
  | captured (capture : Capture) (c : Char) (rest : List Char)
      (mode : scan.lexing.mode = .markup) (active : scan.lexing.capture = some capture)
      (passes : scan.lexing.withheld = 0) (depth : Nat) (level : 0 < depth) :
      Turn scan before c rest
        { scan with lexing := { scan.lexing with depth }, draft := scan.extend c }
  | endExpression (rest : List Char) (mode : scan.lexing.mode = .markup)
      (active : scan.lexing.capture = some .expression) (passes : scan.lexing.withheld = 0) :
      Turn scan before '}' rest
        { scan with lexing := { scan.lexing with capture := none, depth := 0 } }
  | endBound (binding : Binding) (rest : List Char) (mode : scan.lexing.mode = .markup)
      (active : scan.lexing.capture = some (.bound binding))
      (passes : scan.lexing.withheld = 0) :
      Turn scan before '}' rest
        { lexing := { scan.lexing with capture := none, depth := 0 }
          draft :=
            (scan.draft.release.2.hoist
              { anchor := scan.lexing.anchor
                binding
                name := NameSupply.nameOf (scan.names.issued + 1)
                body := scan.draft.release.1 }).push
              (.reference binding (NameSupply.nameOf (scan.names.issued + 1)))
          names := ⟨scan.names.issued + 1⟩ }

/-! ### Places -/

theorem isFirst_iff {line : Nat} {before rest : List Char} :
    (Cursor.mk line before rest).isFirst = true ↔ before = [] := by
  simp [Cursor.isFirst]

theorem isLast_iff {line : Nat} {before rest : List Char} {c : Char} :
    (Cursor.mk line before (c :: rest)).isLast = true ↔ rest = [] := by
  rw [Cursor.isLast_iff_length, List.length_cons, Nat.succ_inj, List.length_eq_zero_iff]

theorem ahead_singleton_iff {line : Nat} {before rest : List Char} {c d : Char} :
    (Cursor.mk line before (c :: rest)).ahead [d] = true ↔ rest.head? = some d := by
  cases rest <;> simp [Cursor.ahead, List.isPrefixOf, eq_comm (a := d)]

theorem behind_singleton_iff {line : Nat} {before rest : List Char} {d : Char} :
    (Cursor.mk line before rest).behind [d] = true ↔ before.head? = some d := by
  cases before <;> simp [Cursor.behind, List.isPrefixOf, eq_comm (a := d)]

/-! ### Turns of a phase -/

theorem continuesName_of_name? {text name left : List Char} {c : Char}
    (read : Text.name? Shorthand.startsName Shorthand.continuesName text = some (name, left))
    (member : c ∈ name) : Shorthand.continuesName c = true := by
  cases text with
  | nil => simp [Text.name?] at read
  | cons first text =>
    simp only [Text.name?] at read
    split at read
    · next starts =>
      obtain ⟨rfl, rfl⟩ := Prod.mk.inj (Option.some.inj read)
      rcases List.mem_cons.1 member with rfl | member
      · simp [Shorthand.continuesName, starts]
      · exact List.all_eq_true.1 List.all_takeWhile c member
    · simp at read

theorem Spent.tail {before skipped : List Char} {c : Char} (spent : Spent before (c :: skipped)) :
    Spent (c :: before) skipped := by
  rcases spent with named | ⟨pair, -⟩
  · exact .inl fun d member => named d (List.mem_cons_of_mem c member)
  · exact .inl (by simp [(List.cons.inj pair).2])

theorem Spent.perform_inMarkup {scan : Scan} {line : Nat} {before skipped rest : List Char}
    {c : Char} (spent : Spent before (c :: skipped)) :
    scan.perform (Act.inMarkup c ⟨line, before, c :: rest⟩) = scan := by
  rcases spent with named | ⟨pair, behind⟩
  · exact Scan.perform_inMarkup_of_inert (inert_of_continuesName (named c List.mem_cons_self))
  · obtain ⟨rfl, rfl⟩ := List.cons.inj pair
    exact Scan.perform_inMarkup_of_repeated (behind_singleton_iff.2 behind)

theorem written_of_read {line width : Nat} {before rest : List Char} {call : AttributeCall}
    (read : Shorthand.read false ⟨line, before, '@' :: rest⟩ = .write call width) :
    ∃ skipped left, rest = skipped ++ left ∧ width = skipped.length + 1 ∧
      call.Written before skipped := by
  unfold Shorthand.read at read
  split at read
  · simp at read
  split at read
  · simp at read
  rw [if_neg (by simp)] at read
  split at read
  · next pair =>
    obtain ⟨left, rfl⟩ := List.head?_eq_some_iff.1 (ahead_singleton_iff.1 pair)
    obtain ⟨rfl, rfl⟩ := Shorthand.write.inj read
    exact ⟨['@'], left, rfl, rfl, .all⟩
  split at read
  · simp at read
  next name left named =>
    have inside : ∀ c ∈ name, Shorthand.continuesName c = true := fun c member =>
      continuesName_of_name? named member
    obtain ⟨called, rfl⟩ := Shorthand.write.inj read
    refine ⟨name, left, (Text.append_of_name? named).symm, rfl, ?_⟩
    by_cases dashed : before.head? = some '-'
    · rw [if_pos (behind_singleton_iff.2 dashed)] at called
      exact called ▸ .pop name inside dashed
    · rw [if_neg (dashed ∘ behind_singleton_iff.1)] at called
      exact called ▸ .html name inside dashed

namespace Scan

variable {scan : Scan} {line : Nat} {before rest : List Char} {c : Char}

theorem step_at (mode : scan.lexing.mode = .markup) (idle : scan.lexing.capture = none)
    (passes : scan.lexing.withheld = 0) :
    Turn scan before '@' rest (scan.step (.visit '@' ⟨line, before, '@' :: rest⟩)) := by
  have plain (shorthand : Shorthand)
      (read : Shorthand.read false ⟨line, before, '@' :: rest⟩ = shorthand)
      (silent : scan.perform (.shorthand shorthand) = scan) :
      Turn scan before '@' rest (scan.step (.visit '@' ⟨line, before, '@' :: rest⟩)) := by
    rw [step_literal mode idle passes (by simpa [Act.inMarkup, read] using silent)]
    exact .literal _ _ mode idle passes
  cases read : Shorthand.read false ⟨line, before, '@' :: rest⟩ with
  | repeated => exact plain _ read rfl
  | leading => exact plain _ read rfl
  | captured => exact plain _ read rfl
  | nameless => exact plain _ read rfl
  | write call width =>
    obtain ⟨skipped, left, rfl, rfl, written⟩ := written_of_read read
    rw [step_write mode idle read]
    refine .write call skipped left mode idle passes written fun other => ?_
    have same : Shorthand.read false ⟨other, before, '@' :: (skipped ++ left)⟩ = _ := read
    simp [Act.read, Act.inMarkup, mode, idle, same]

theorem step_markup (mode : scan.lexing.mode = .markup) (idle : scan.lexing.capture = none)
    (passes : scan.lexing.withheld = 0) :
    Turn scan before c rest (scan.step (.visit c ⟨line, before, c :: rest⟩)) := by
  have plain (act : scan.perform (Act.inMarkup c ⟨line, before, c :: rest⟩) = scan) :
      Turn scan before c rest (scan.step (.visit c ⟨line, before, c :: rest⟩)) := by
    rw [step_literal mode idle passes act]
    exact .literal c rest mode idle passes
  by_cases plus : c = '+'
  · subst plus
    by_cases first : before = []
    · by_cases led : scan.lexing.plusLed = true
      · rw [step_lead mode idle passes (isFirst_iff.2 first) led]
        exact .lead rest mode idle passes first
      · have same : scan.perform .lead = scan := by
          obtain ⟨⟨_, _, _, _, _, _, _, _⟩, _, _⟩ := scan
          cases passes
          cases Bool.not_eq_true _ ▸ led
          rfl
        exact plain (by rw [Act.inMarkup, if_pos rfl, if_pos (isFirst_iff.2 first), same])
    · by_cases last : rest = []
      · subst last
        rw [step_carry mode idle passes (by simpa [Cursor.isFirst] using first)
          (isLast_iff.2 rfl)]
        exact .carry [] mode idle passes rfl
      · refine plain ?_
        rw [Act.inMarkup, if_pos rfl, if_neg (first ∘ isFirst_iff.1),
          if_neg (last ∘ isLast_iff.1)]
        rfl
  by_cases shorthand : c = '@'
  · subst shorthand
    exact step_at mode idle passes
  cases sigil : Capture.ofSigil? c with
  | none => exact plain (by simp [Act.inMarkup, plus, shorthand, sigil, perform])
  | some capture =>
    by_cases brace : (Cursor.mk line before (c :: rest)).ahead ['{'] = true
    · obtain ⟨left, rfl⟩ := List.head?_eq_some_iff.1 (ahead_singleton_iff.1 brace)
      rw [step_sigil mode idle sigil brace]
      exact .sigil capture c left mode idle passes sigil
    · exact plain (by simp [Act.inMarkup, plus, shorthand, sigil, brace, perform])

theorem step_capturing {capture : Capture} (mode : scan.lexing.mode = .markup)
    (active : scan.lexing.capture = some capture) (level : 0 < scan.lexing.depth)
    (passes : scan.lexing.withheld = 0) :
    Turn scan before c rest (scan.step (.visit c ⟨line, before, c :: rest⟩)) := by
  by_cases opening : c = '{'
  · subst opening
    rw [step_deepen mode active passes]
    exact .captured capture _ rest mode active passes _ (Nat.succ_pos _)
  by_cases closing : c = '}'
  · subst closing
    by_cases shallow : scan.lexing.depth ≤ 1
    · cases capture with
      | expression =>
        rw [step_endExpression mode active passes shallow]
        exact .endExpression rest mode active passes
      | bound binding =>
        rw [step_endBound mode active passes shallow]
        exact .endBound binding rest mode active passes
    · rw [step_rise mode active passes (by omega)]
      exact .captured capture _ rest mode active passes _ (by omega)
  · rw [step_captured mode active passes opening closing]
    exact .captured capture c rest mode active passes scan.lexing.depth level

end Scan

theorem Phase.turn {scan : Scan} {before rest : List Char} {c : Char} (line : Nat)
    (phase : Phase scan.lexing before (c :: rest)) :
    Turn scan before c rest (scan.step (.visit c ⟨line, before, c :: rest⟩)) := by
  cases phase with
  | script mode idle level passes =>
    by_cases opens : c = '<' ∧ before = []
    · obtain ⟨rfl, rfl⟩ := opens
      rw [Scan.step_opening mode idle passes rfl]
      exact .opening rest mode idle passes rfl
    · rw [Scan.step_statement mode idle passes (by rwa [isFirst_iff])]
      exact .statement c rest mode idle passes opens
  | markup mode idle level skipped left split withheld spent =>
    cases skipped with
    | nil => exact Scan.step_markup mode idle withheld
    | cons first skipped =>
      rw [List.cons_append] at split
      obtain ⟨rfl, rfl⟩ := List.cons.inj split
      rw [Scan.step_withheld mode idle withheld spent.perform_inMarkup]
      exact .withheld c _ mode idle _ withheld
  | sigil capture mode active level withheld brace =>
    obtain ⟨_, same⟩ := List.head?_eq_some_iff.1 brace
    obtain ⟨rfl, rfl⟩ := List.cons.inj same
    rw [Scan.step_brace mode active withheld]
    exact .brace capture rest mode active withheld
  | capturing capture mode active level passes =>
    exact Scan.step_capturing mode active level passes

/-! ### Phases of a run -/

theorem Phase.free {lexing : Lexing} (before rest : List Char) (mode : lexing.mode = .markup)
    (idle : lexing.capture = none) (level : lexing.depth = 0) (passes : lexing.withheld = 0) :
    Phase lexing before rest :=
  .markup mode idle level [] rest rfl passes (.inl (by simp))

theorem Phase.step {scan : Scan} {line : Nat} {before rest : List Char} {c : Char}
    (phase : Phase scan.lexing before (c :: rest)) :
    Phase (scan.step (.visit c ⟨line, before, c :: rest⟩)).lexing (c :: before) rest := by
  have turn := phase.turn line
  generalize scan.step (.visit c ⟨line, before, c :: rest⟩) = next at turn
  cases phase with
  | script mode idle level passes =>
    cases turn with
    | statement => exact .script mode idle level passes
    | opening => exact .free _ _ rfl idle level passes
    | _ => simp_all
  | markup mode idle level skipped left split withheld spent =>
    cases skipped with
    | nil =>
      cases turn with
      | literal => exact .free _ _ mode idle level withheld
      | lead => exact .free _ _ mode idle level withheld
      | carry => exact .free _ _ mode idle level withheld
      | write call skipped left _ _ _ written =>
        exact .markup mode idle level skipped left rfl rfl written.spent
      | sigil capture c rest => exact .sigil capture mode rfl rfl rfl rfl
      | _ => simp_all
    | cons first skipped =>
      rw [List.cons_append] at split
      obtain ⟨rfl, tail⟩ := List.cons.inj split
      cases turn with
      | withheld _ _ _ _ left counted =>
        exact .markup mode idle level skipped _ tail (by simpa [counted] using withheld)
          spent.tail
      | _ => simp_all
  | sigil capture mode active level withheld brace =>
    cases turn with
    | brace => exact .capturing capture mode active (Nat.succ_pos _) rfl
    | _ => simp_all
  | capturing capture mode active level passes =>
    cases turn with
    | captured _ _ _ _ _ _ depth level => exact .capturing capture mode active level passes
    | endExpression => exact .free _ _ mode rfl rfl passes
    | endBound => exact .free _ _ mode rfl rfl passes
    | _ => simp_all

theorem Phase.startLine {scan : Scan} (phase : Phase scan.lexing [] []) (place : Cursor)
    (text : List Char) : Phase (scan.startLine place).lexing [] text := by
  cases phase with
  | script mode idle level passes => exact .script mode idle level passes
  | markup mode idle level skipped left split withheld =>
    obtain ⟨rfl, rfl⟩ := List.nil_eq_append_iff.1 split
    exact .free _ _ mode idle level withheld
  | sigil _ _ _ _ _ brace => simp at brace
  | capturing capture mode active level passes =>
    exact .capturing capture mode active level passes

theorem Phase.endLine {scan : Scan} {before : List Char} (phase : Phase scan.lexing before []) :
    Phase scan.endLine.lexing [] [] := by
  cases phase with
  | script mode idle level passes =>
    rw [Scan.endLine_script mode idle]
    exact .script mode idle level passes
  | markup mode idle level skipped left split withheld =>
    obtain ⟨rfl, rfl⟩ := List.nil_eq_append_iff.1 split
    cases carried : scan.lexing.continues with
    | true =>
      rw [Scan.endLine_carried mode idle carried]
      exact .free _ _ mode idle level withheld
    | false =>
      rw [Scan.endLine_closing mode idle carried]
      exact .script rfl idle level withheld
  | sigil _ _ _ _ _ brace => simp at brace
  | capturing capture mode active level passes =>
    rw [Scan.endLine_capturing active]
    exact .capturing capture mode active level passes

/-- A run that starts in a phase stays in one. -/
theorem Reached.phase {start scan : Scan} {source : String} {seen : List Signal} {unread : Unread}
    (reached : Reached start source seen unread scan) (phase : Phase start.lexing [] []) :
    Phase scan.lexing unread.before unread.rest := by
  induction reached with
  | start => exact phase
  | lineStart _ ih => exact ih.startLine _ _
  | visit _ ih => exact ih.step
  | lineEnd _ ih => exact ih.endLine

theorem Phase.mode_ne_tag {lexing : Lexing} {before rest : List Char}
    (phase : Phase lexing before rest) : lexing.mode ≠ .tag := by
  cases phase with
  | script mode | markup mode | sigil _ mode | capturing _ mode =>
    rw [mode]
    decide

theorem Phase.passes_at_end {lexing : Lexing} {before : List Char}
    (phase : Phase lexing before []) : lexing.withheld = 0 := by
  cases phase with
  | script _ _ _ passes => exact passes
  | markup _ _ _ skipped left split withheld =>
    obtain ⟨rfl, rfl⟩ := List.nil_eq_append_iff.1 split
    exact withheld
  | sigil _ _ _ _ _ brace => simp at brace
  | capturing _ _ _ _ passes => exact passes

/-- A character that is neither in a name nor a `@` is not part of a token that is written already. -/
theorem Phase.passes_of_idle {lexing : Lexing} {before rest : List Char} {c : Char}
    (phase : Phase lexing before (c :: rest)) (idle : lexing.capture = none)
    (unnamed : Shorthand.continuesName c = false) (other : c ≠ '@') :
    lexing.withheld = 0 := by
  cases phase with
  | script _ _ _ passes => exact passes
  | markup _ _ _ skipped left split withheld spent =>
    cases skipped with
    | nil => exact withheld
    | cons first skipped =>
      rw [List.cons_append] at split
      obtain ⟨rfl, -⟩ := List.cons.inj split
      rcases spent with named | ⟨pair, -⟩
      · exact absurd (named c List.mem_cons_self) (by simp [unnamed])
      · exact absurd (List.cons.inj pair).1 other
  | sigil _ _ active => exact absurd (idle.symm.trans active) (by simp)
  | capturing _ _ _ _ passes => exact passes

theorem phase_initial : Phase {} [] [] := .script rfl rfl rfl rfl

theorem Reached.phase_of_fresh {start scan : Scan} {source : String} {seen : List Signal}
    {unread : Unread} (fresh : start.lexing = {}) (reached : Reached start source seen unread scan) :
    Phase scan.lexing unread.before unread.rest :=
  reached.phase (fresh ▸ phase_initial)

end ScriptedMarkup
