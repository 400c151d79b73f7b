import ScriptedMarkup.Text.Quoted

/-!
# Quoted literals

`Literals` reads literals between single quotes, and does not see where a character comes from. A
text that `Lexes` has no literal that starts or ends but at a quote of the writer's own.
`lexes_escape` shows that escaped text is of this kind, and that its value is the text itself.
-/

namespace ScriptedMarkup.Text

/-- A character of a text that has been written, or an expression in it as a whole. -/
inductive Mark where
  /-- A character that the writer has added. -/
  | own (c : Char)
  /-- A character of what is quoted. -/
  | quoted (c : Char)
  | operand (source : String)
  deriving DecidableEq, Repr

namespace Mark

def chars : Mark → List Char
  | own c | quoted c => [c]
  | operand source => source.toList

def fixed (text : String) : List Mark := text.toList.map own

/-- An escaped text. The backslashes that escape are the writer's own. -/
def escape (text : String) : List Mark :=
  text.toList.flatMap fun c => (escapeChar c).dropLast.map own ++ [quoted c]

@[simp]
theorem chars_fixed (text : String) : (fixed text).flatMap chars = text.toList := by
  simp [fixed, List.flatMap_map, chars]

theorem escapeChar_eq (c : Char) : (escapeChar c).dropLast ++ [c] = escapeChar c := by
  unfold escapeChar
  split
  · next same => simp [same]
  split
  · next same => simp [same]
  · rfl

@[simp]
theorem chars_escape (text : String) :
    (escape text).flatMap chars = (Text.escape text).toList := by
  have each (c : Char) :
      ((escapeChar c).dropLast.map own ++ [quoted c]).flatMap chars = escapeChar c := by
    rw [List.flatMap_append, List.flatMap_map]
    exact (congrArg (· ++ [c]) (List.flatMap_singleton' _)).trans (escapeChar_eq c)
  rw [toList_escape, escape, List.flatMap_assoc]
  exact congrArg (text.toList.flatMap ·) (funext each)

end Mark

inductive Quoting where
  | outside
  | inside
  /-- Within a literal, after a backslash. -/
  | escaped
  deriving DecidableEq, Repr

structure Literals where
  quoting : Quoting := .outside
  /-- The values of the literals so far, the last one first. -/
  values : List (List Char) := []
  deriving DecidableEq, Repr

namespace Literals

def read : Literals → Char → Literals
  | ⟨.outside, values⟩, c => if c = '\'' then ⟨.inside, [] :: values⟩ else ⟨.outside, values⟩
  | ⟨.inside, values⟩, c =>
    if c = '\'' then ⟨.outside, values⟩
    else if c = '\\' then ⟨.escaped, values⟩
    else ⟨.inside, values.modifyHead (· ++ [c])⟩
  | ⟨.escaped, values⟩, c => ⟨.inside, values.modifyHead (· ++ [c])⟩

/-- Reads on. Outside of literals an expression is passed over. -/
def take (literals : Literals) : Mark → Literals
  | .own c | .quoted c => literals.read c
  | .operand source =>
    if literals.quoting = .outside then literals else source.toList.foldl read literals

def run (literals : Literals) (marks : List Mark) : Literals := marks.foldl take literals

/-- Quotes of the writer's own, and nothing else, start and end literals. What is quoted stays
within a literal, and expressions stay outside. -/
structure Keeps (literals : Literals) (mark : Mark) : Prop where
  bounds : mark = .own '\'' ↔
    ((literals.take mark).quoting = .outside ↔ literals.quoting ≠ .outside)
  quoted : ∀ c, mark = .quoted c →
    literals.quoting ≠ .outside ∧ (literals.take mark).quoting ≠ .outside
  operand : ∀ source, mark = .operand source → literals.quoting = .outside

/-- How a text is read in which every literal is kept. -/
inductive Lexes : Literals → List Mark → Literals → Prop
  | nil (literals : Literals) : Lexes literals [] literals
  | cons {literals next : Literals} {mark : Mark} {marks : List Mark} (keeps : literals.Keeps mark)
      (more : Lexes (literals.take mark) marks next) : Lexes literals (mark :: marks) next

variable {literals between next : Literals} {first second marks : List Mark}

theorem Lexes.append (lexes : Lexes literals first between) (more : Lexes between second next) :
    Lexes literals (first ++ second) next := by
  induction lexes with
  | nil => exact more
  | cons keeps _ ih => exact .cons keeps (ih more)

theorem Lexes.run_eq (lexes : Lexes literals marks next) : literals.run marks = next := by
  induction lexes with
  | nil => rfl
  | cons _ _ ih => exact ih

theorem Lexes.keeps {before after : List Mark} {mark : Mark}
    (lexes : Lexes literals (before ++ mark :: after) next) : (literals.run before).Keeps mark := by
  induction before generalizing literals with
  | nil =>
    cases lexes with
    | cons keeps => exact keeps
  | cons first before ih =>
    cases lexes with
    | cons _ more => exact ih more

/-! ### Reading what is written -/

theorem lexes_opening (values : List (List Char)) :
    Lexes ⟨.outside, values⟩ [.own '\''] ⟨.inside, [] :: values⟩ := by
  have opened : (Literals.mk .outside values).take (.own '\'') = ⟨.inside, [] :: values⟩ := rfl
  refine .cons ⟨?_, by simp, by simp⟩ ?_
  · simp [opened]
  · rw [opened]
    exact .nil _

theorem lexes_closing (values : List (List Char)) :
    Lexes ⟨.inside, values⟩ [.own '\''] ⟨.outside, values⟩ := by
  have closed : (Literals.mk .inside values).take (.own '\'') = ⟨.outside, values⟩ := rfl
  refine .cons ⟨?_, by simp, by simp⟩ ?_
  · simp [closed]
  · rw [closed]
    exact .nil _

theorem lexes_operand (source : String) (values : List (List Char)) :
    Lexes ⟨.outside, values⟩ [.operand source] ⟨.outside, values⟩ :=
  .cons ⟨by simp [take], by simp, by simp⟩ (.nil _)

theorem lexes_outside {text : String} (plain : '\'' ∉ text.toList) (values : List (List Char)) :
    Lexes ⟨.outside, values⟩ (Mark.fixed text) ⟨.outside, values⟩ := by
  unfold Mark.fixed
  generalize text.toList = chars at plain
  induction chars with
  | nil => exact .nil _
  | cons c rest ih =>
    have other : c ≠ '\'' := (List.ne_of_not_mem_cons plain).symm
    have same : (Literals.mk .outside values).take (.own c) = ⟨.outside, values⟩ := if_neg other
    refine .cons ⟨?_, by simp, by simp⟩ ?_
    · simp [same, other]
    · rw [same]
      exact ih (List.not_mem_of_not_mem_cons plain)

theorem lexes_plain {c : Char} {mark : Mark} (chars : mark = .own c ∨ mark = .quoted c)
    (quote : c ≠ '\'') (backslash : c ≠ '\\') (value : List Char) (values : List (List Char)) :
    Lexes ⟨.inside, value :: values⟩ [mark] ⟨.inside, (value ++ [c]) :: values⟩ := by
  have added : (Literals.mk .inside (value :: values)).take mark =
      ⟨.inside, (value ++ [c]) :: values⟩ := by
    rcases chars with rfl | rfl <;> simp [take, read, quote, backslash]
  refine .cons ⟨?_, ?_, ?_⟩ (by rw [added]; exact .nil _)
  · rcases chars with rfl | rfl <;> simp [added, quote]
  · simp [added]
  · rcases chars with rfl | rfl <;> simp

theorem lexes_escaped (c : Char) (value : List Char) (values : List (List Char)) :
    Lexes ⟨.inside, value :: values⟩ [.own '\\', .quoted c]
      ⟨.inside, (value ++ [c]) :: values⟩ := by
  have escaping : (Literals.mk .inside (value :: values)).take (.own '\\') =
      ⟨.escaped, value :: values⟩ := rfl
  have added : (Literals.mk .escaped (value :: values)).take (.quoted c) =
      ⟨.inside, (value ++ [c]) :: values⟩ := rfl
  refine .cons ⟨?_, by simp, by simp⟩ ?_
  · simp [escaping]
  rw [escaping]
  refine .cons ⟨?_, ?_, by simp⟩ ?_
  · simp [added]
  · simp [added]
  · rw [added]
    exact .nil _

theorem lexes_fixed {text : String} (plain : '\'' ∉ text.toList ∧ '\\' ∉ text.toList)
    (value : List Char) (values : List (List Char)) :
    Lexes ⟨.inside, value :: values⟩ (Mark.fixed text)
      ⟨.inside, (value ++ text.toList) :: values⟩ := by
  unfold Mark.fixed
  generalize text.toList = chars at plain
  induction chars generalizing value with
  | nil =>
    rw [List.append_nil]
    exact .nil _
  | cons c rest ih =>
    obtain ⟨quote, backslash⟩ := plain
    have first := lexes_plain (.inl rfl) (List.ne_of_not_mem_cons quote).symm
      (List.ne_of_not_mem_cons backslash).symm value values
    have more := ih (value ++ [c])
      ⟨List.not_mem_of_not_mem_cons quote, List.not_mem_of_not_mem_cons backslash⟩
    rw [List.append_assoc] at more
    exact first.append more

theorem lexes_escape (text : String) (value : List Char) (values : List (List Char)) :
    Lexes ⟨.inside, value :: values⟩ (Mark.escape text)
      ⟨.inside, (value ++ text.toList) :: values⟩ := by
  unfold Mark.escape
  generalize text.toList = chars
  induction chars generalizing value with
  | nil =>
    rw [List.append_nil]
    exact .nil _
  | cons c rest ih =>
    have first : Lexes ⟨.inside, value :: values⟩ ((escapeChar c).dropLast.map .own ++ [.quoted c])
        ⟨.inside, (value ++ [c]) :: values⟩ := by
      unfold escapeChar
      split
      · exact lexes_escaped c value values
      split
      · exact lexes_escaped c value values
      · next backslash quote => exact lexes_plain (.inr rfl) quote backslash value values
    have more := ih (value ++ [c])
    rw [List.append_assoc] at more
    exact first.append more

end Literals

end ScriptedMarkup.Text
