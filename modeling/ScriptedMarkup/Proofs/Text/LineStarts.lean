import ScriptedMarkup.Text.Lines

/-!
# Starts of lines

`leads` asks for a character at the start of a line and goes through a text in one pass, so that a
text can be taken in parts (`leads_append`). `leads_iff` says the same of the lines of the text.
-/

namespace ScriptedMarkup.Text

/-- Whether `mark` comes first on a line of a text. The text itself starts on a `fresh` line, or
within one. -/
def leads (mark : Char) : Bool → List Char → Bool
  | _, [] => false
  | fresh, c :: rest => fresh && c == mark || leads mark (c == '\n') rest

/-- Whether what comes after a text starts a line. -/
def freshAfter : Bool → List Char → Bool
  | fresh, [] => fresh
  | _, c :: rest => freshAfter (c == '\n') rest

variable {mark : Char} {fresh : Bool} {text : List Char}

theorem leads_append (mark : Char) (fresh : Bool) (first second : List Char) :
    leads mark fresh (first ++ second) =
      (leads mark fresh first || leads mark (freshAfter fresh first) second) := by
  induction first generalizing fresh with
  | nil => rfl
  | cons c first ih => simp only [List.cons_append, leads, freshAfter, ih, Bool.or_assoc]

theorem freshAfter_append (fresh : Bool) (first second : List Char) :
    freshAfter fresh (first ++ second) = freshAfter (freshAfter fresh first) second := by
  induction first generalizing fresh with
  | nil => rfl
  | cons c first ih => exact ih _

theorem leads_of_fresh (none : leads mark true text = false) (fresh : Bool) :
    leads mark fresh text = false := by
  cases text with
  | nil => rfl
  | cons c rest =>
    simp only [leads, Bool.or_eq_false_iff, Bool.and_eq_false_iff] at none ⊢
    exact ⟨.inr (none.1.resolve_left (by decide)), none.2⟩

theorem leads_of_not_mem (lined : '\n' ∉ text) : leads mark false text = false := by
  induction text with
  | nil => rfl
  | cons c rest ih =>
    have other : '\n' ≠ c := List.ne_of_not_mem_cons lined
    rw [leads, beq_false_of_ne other.symm, ih (List.not_mem_of_not_mem_cons lined)]
    rfl

theorem freshAfter_of_not_mem (lined : '\n' ∉ text) : freshAfter false text = false := by
  induction text with
  | nil => rfl
  | cons c rest ih =>
    have other : '\n' ≠ c := List.ne_of_not_mem_cons lined
    rw [freshAfter, beq_false_of_ne other.symm]
    exact ih (List.not_mem_of_not_mem_cons lined)

/-- The lines that start in a text. -/
def linesFrom (fresh : Bool) (text : List Char) : List (List Char) :=
  if fresh then splitLines text else (splitLines text).tail

@[simp]
theorem linesFrom_true (text : List Char) : linesFrom true text = splitLines text := rfl

theorem leads_iff (other : mark ≠ '\n') :
    leads mark fresh text = true ↔ ∃ line ∈ linesFrom fresh text, line.head? = some mark := by
  induction text generalizing fresh with
  | nil => cases fresh <;> simp [leads, linesFrom, splitLines]
  | cons c rest ih =>
    by_cases feed : c = '\n'
    · subst feed
      have restart : linesFrom true ('\n' :: rest) = [] :: linesFrom true rest := by
        simp [linesFrom, splitLines]
      have goesOn : linesFrom false ('\n' :: rest) = linesFrom true rest := by
        simp [linesFrom, splitLines]
      rw [leads, beq_false_of_ne other.symm, Bool.and_false, Bool.false_or, beq_self_eq_true, ih]
      cases fresh with
      | true => simp [restart]
      | false => rw [goesOn]
    · obtain ⟨first, more, found⟩ := List.exists_cons_of_ne_nil (splitLines_ne_nil rest)
      have split : splitLines (c :: rest) = (c :: first) :: more := by
        simp [splitLines, feed, found]
      have tail : linesFrom false rest = more := by simp [linesFrom, found]
      rw [leads, beq_false_of_ne feed, Bool.or_eq_true, ih, tail]
      cases fresh with
      | true => simp [linesFrom, split]
      | false => simp [linesFrom, split]

end ScriptedMarkup.Text
