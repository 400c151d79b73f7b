import Mathlib.Data.List.Induction
import ScriptedMarkup.Header

/-!
# Headers by edits

A hook makes a header by a list of edits, which say what it declares (`Header.declared_edited`) and
defines (`Header.definitions_edited`).
-/

namespace ScriptedMarkup

namespace Header

/-- What a hook may do to a header. -/
inductive Edit where
  | declare (name : String)
  | define (definition : String)
  deriving DecidableEq, Repr

namespace Edit

def declared? : Edit → Option String
  | declare name => some name
  | define _ => none

def definition? : Edit → Option String
  | declare _ => none
  | define definition => some definition

end Edit

def edit (header : Header) : Edit → Header
  | .declare name => header.declare name
  | .define definition => header.define definition

/-- The header that edits make. -/
def edited (edits : List Edit) : Header := edits.foldl edit {}

theorem edited_concat (edits : List Edit) (last : Edit) :
    edited (edits ++ [last]) = (edited edits).edit last := by
  simp [edited]

theorem eraseDups_concat (names : List String) (name : String) :
    (names ++ [name]).eraseDups =
      if name ∈ names then names.eraseDups else names.eraseDups ++ [name] := by
  rw [List.eraseDups_append]
  by_cases known : name ∈ names
  · have none : [name].removeAll names = [] := by simp [List.removeAll, known]
    rw [none, if_pos known, List.eraseDups_nil, List.append_nil]
  · have own : [name].removeAll names = [name] := by simp [List.removeAll, known]
    rw [own, if_neg known]
    rfl

/-- Each name is declared once, where it is declared first. -/
theorem declared_edited (edits : List Edit) :
    (edited edits).declared = (edits.filterMap Edit.declared?).eraseDups := by
  induction edits using List.reverseRecOn with
  | nil => rfl
  | append_singleton edits last ih =>
    rw [edited_concat, List.filterMap_append]
    cases last with
    | declare name =>
      have last : [Edit.declare name].filterMap Edit.declared? = [name] := rfl
      have known : name ∈ (edited edits).declared ↔ name ∈ edits.filterMap Edit.declared? := by
        rw [ih, List.mem_eraseDups]
      rw [last, eraseDups_concat, ← ih, edit, declare]
      simp only [known]
      split <;> rfl
    | define definition =>
      rw [List.filterMap_cons_none rfl, List.filterMap_nil, List.append_nil, ← ih]
      rfl

theorem definitions_edited (edits : List Edit) :
    (edited edits).definitions = edits.filterMap Edit.definition? := by
  induction edits using List.reverseRecOn with
  | nil => rfl
  | append_singleton edits last ih =>
    rw [edited_concat, List.filterMap_append, ← ih]
    cases last with
    | declare name =>
      rw [List.filterMap_cons_none rfl, List.filterMap_nil, List.append_nil, edit, declare]
      split <;> rfl
    | define definition => rfl

/-- A header ends its last line. -/
theorem exists_toList_render (header : Header) (parameters : List String) :
    ∃ front, (header.render parameters).toList = front ++ ['\n'] := by
  have split : ∃ front, header.render parameters =
      front ++ ";\n" ++ String.join (header.definitions.map (· ++ "\n")) := ⟨_, rfl⟩
  obtain ⟨front, split⟩ := split
  rw [split]
  rcases List.eq_nil_or_concat header.definitions with none | ⟨definitions, last, some⟩
  · exact ⟨front.toList ++ [';'], by simp [none]⟩
  · refine ⟨(front ++ ";\n" ++ String.join (definitions.map (· ++ "\n"))).toList ++ last.toList, ?_⟩
    simp [some]

/-- All that a header takes from the parameters is whether the output object is one. -/
theorem render_congr {first second : List String}
    (same : outputName ∈ first ↔ outputName ∈ second) (header : Header) :
    header.render first = header.render second := by
  unfold render
  simp only [same]

end Header

end ScriptedMarkup
