import ScriptedMarkup.Proofs.Draft.Texts
import ScriptedMarkup.Proofs.Scan.Spelling

/-!
# Characters that only stand for themselves

A character that is `Ordinary` starts nothing and is in no name. It gets into the text of a literal
where it is read in markup, outside of captures, and in no other way (`Reached.mem_texts_iff`).
-/

namespace ScriptedMarkup

/-- A character that no signal does anything about but to add it to what is being read. -/
structure Ordinary (c : Char) : Prop where
  inert : Inert c
  unnamed : Shorthand.continuesName c = false
  opensNothing : c ≠ '<'

namespace Ordinary

variable {c : Char}

theorem ne_dash (ordinary : Ordinary c) : c ≠ '-' := by
  rintro rfl
  exact absurd ordinary.unnamed (by decide)

theorem not_sigil (ordinary : Ordinary c) {capture : Capture} : Capture.ofSigil? c ≠ some capture := by
  obtain ⟨-, -, -, -, none⟩ := ordinary.inert
  rw [none]
  exact nofun

end Ordinary

/-- A signal reads `c` in markup, outside of captures. -/
def Scan.ReadsText (c : Char) (start : Scan) (signals : List Signal) : Prop :=
  ∃ seen place more, signals = seen ++ .visit c place :: more ∧ (start.run seen).inMarkup = true

theorem Scan.readsText_concat {c : Char} {start : Scan} {seen : List Signal} {signal : Signal} :
    start.ReadsText c (seen ++ [signal]) ↔
      start.ReadsText c seen ∨
        (∃ place, signal = .visit c place) ∧ (start.run seen).inMarkup = true := by
  constructor
  · rintro ⟨first, place, more, split, markup⟩
    rcases List.eq_nil_or_concat more with rfl | ⟨more, last, rfl⟩
    · obtain ⟨rfl, same⟩ := List.append_inj' split rfl
      exact .inr ⟨⟨place, (List.cons.inj same).1⟩, markup⟩
    · have whole : seen ++ [signal] = (first ++ .visit c place :: more) ++ [last] := by
        simpa using split
      obtain ⟨earlier, -⟩ := List.append_inj' whole rfl
      exact .inl ⟨first, place, more, earlier, markup⟩
  · rintro (⟨first, place, more, rfl, markup⟩ | ⟨⟨place, rfl⟩, markup⟩)
    · exact ⟨first, place, more ++ [signal], by simp, markup⟩
    · exact ⟨seen, place, [], rfl, markup⟩

section Step

variable {scan : Scan} {before rest : List Char} {c : Char}

theorem Scan.inMarkup_of_script (mode : scan.lexing.mode = .script) : scan.inMarkup = false := by
  simp [Scan.inMarkup, mode]

theorem Scan.inMarkup_of_active {capture : Capture} (active : scan.lexing.capture = some capture) :
    scan.inMarkup = false := by
  simp [Scan.inMarkup, active]

theorem Scan.texts_extend {capture : Capture} (active : scan.lexing.capture = some capture)
    (other : Char) : (scan.extend other).texts = scan.draft.texts := by
  cases capture with
  | expression => rw [Scan.extend_expression active, Draft.texts_expressionChar]
  | bound binding =>
    rw [Scan.extend_bound active]
    rfl

theorem Phase.mem_texts_visit {line : Nat} {mark : Char} (ordinary : Ordinary mark)
    (phase : Phase scan.lexing before (c :: rest)) :
    mark ∈ (scan.step (.visit c ⟨line, before, c :: rest⟩)).draft.texts ↔
      mark ∈ scan.draft.texts ∨ c = mark ∧ scan.inMarkup = true := by
  have turn := phase.turn line
  generalize scan.step (.visit c ⟨line, before, c :: rest⟩) = next at turn
  obtain ⟨notOpening, notClosing, notPlus, notAt, -⟩ := ordinary.inert
  cases turn with
  | statement _ _ mode => simp [Scan.inMarkup_of_script mode]
  | opening => simp [ordinary.opensNothing, ordinary.opensNothing.symm]
  | literal _ _ mode idle => simp [Scan.inMarkup_iff.2 ⟨mode, idle⟩, eq_comm (a := mark)]
  | lead | carry => simp [notPlus.symm]
  | write call => simp [notAt.symm, Draft.mem_texts_writeCall _ ordinary.ne_dash]
  | sigil capture _ _ _ _ _ sigil =>
    have other : c ≠ mark := fun same => ordinary.not_sigil (same ▸ sigil)
    simp [other]
  | withheld _ _ mode idle left withheld =>
    have other : c ≠ mark := by
      rintro rfl
      have passes := phase.passes_of_idle idle ordinary.unnamed notAt
      exact absurd (passes.symm.trans withheld) (Nat.succ_ne_zero left).symm
    simp [other]
  | brace => simp [notOpening.symm]
  | captured _ _ _ _ active => simp [Scan.texts_extend active, Scan.inMarkup_of_active active]
  | endExpression | endBound => simp [notClosing.symm]

theorem Phase.texts_endLine (phase : Phase scan.lexing before []) :
    scan.endLine.draft.texts = scan.draft.texts := by
  cases phase with
  | script mode idle =>
    rw [Scan.endLine_script mode idle]
    exact scan.draft.texts_codeChar '\n'
  | markup mode idle =>
    cases carried : scan.lexing.continues with
    | true => simp [Scan.endLine_carried mode idle carried]
    | false => simp [Scan.endLine_closing mode idle carried]
  | sigil _ _ _ _ _ brace => simp at brace
  | capturing capture mode active =>
    rw [Scan.endLine_capturing active]
    exact Scan.texts_extend active '\n'

end Step

theorem Reached.mem_texts_iff {start scan : Scan} {source : String} {seen : List Signal}
    {unread : Unread} {mark : Char} (reached : Reached start source seen unread scan)
    (phase : Phase start.lexing [] []) (ordinary : Ordinary mark)
    (without : mark ∉ start.draft.texts) :
    mark ∈ scan.draft.texts ↔ start.ReadsText mark seen := by
  induction reached with
  | start =>
    refine iff_of_false without ?_
    rintro ⟨seen, place, more, split, -⟩
    simp at split
  | lineStart _ ih =>
    refine ih.trans ?_
    simp [Scan.readsText_concat]
  | visit reached ih =>
    refine ((reached.phase phase).mem_texts_visit ordinary).trans ?_
    rw [ih, Scan.readsText_concat, ← reached.eq_run]
    simp
  | lineEnd reached ih =>
    rw [(reached.phase phase).texts_endLine, ih]
    simp [Scan.readsText_concat]

end ScriptedMarkup
