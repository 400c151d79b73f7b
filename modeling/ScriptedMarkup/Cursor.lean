/-!
# Cursors

A `Cursor` stands on a character of a line and answers what is around it on that line.
-/

namespace ScriptedMarkup

/-- A place on a line of a source. The default is the place before any line is read. -/
structure Cursor where
  /-- Number of the line, from 1. -/
  line : Nat := 0
  /-- The characters left of the place, the nearest first. -/
  before : List Char := []
  /-- The characters from the place on, the current one first. -/
  rest : List Char := []
  deriving DecidableEq, Repr

namespace Cursor

def start (line : Nat) (text : List Char) : Cursor := ⟨line, [], text⟩

/-- The last character of a line; the start of a line without characters. -/
def final (line : Nat) (text : List Char) : Cursor :=
  ⟨line, text.dropLast.reverse, text.getLast?.toList⟩

def text (place : Cursor) : List Char := place.before.reverse ++ place.rest

def following (place : Cursor) : List Char := place.rest.tail

/-- Whether `word` stands right after the current character. Nothing stands after the place on a
line without characters, not even the empty word. -/
def ahead (place : Cursor) (word : List Char) : Bool :=
  match place.rest with
  | [] => false
  | _ :: following => word.isPrefixOf following

def behind (place : Cursor) (word : List Char) : Bool :=
  word.reverse.isPrefixOf place.before

def isFirst (place : Cursor) : Bool := place.before.isEmpty

def firstChar? (place : Cursor) : Option Char := place.text.head?

/-- Index of the last character of the line, if it has one. -/
def lastIndex? (place : Cursor) : Option Nat :=
  match place.text.length with
  | 0 => none
  | n + 1 => some n

def isLast (place : Cursor) : Bool := place.lastIndex? == some place.before.length

theorem lastIndex?_eq_some_iff (place : Cursor) (index : Nat) :
    place.lastIndex? = some index ↔ place.text.length = index + 1 := by
  unfold lastIndex?
  cases place.text.length <;> simp

/-- The place is the last of its line when the current character is all there is from it on. -/
theorem isLast_iff_length (place : Cursor) : place.isLast = true ↔ place.rest.length = 1 := by
  rw [isLast, beq_iff_eq, lastIndex?_eq_some_iff, text, List.length_append, List.length_reverse,
    Nat.add_left_cancel_iff]

theorem ahead_iff (place : Cursor) (word : List Char) :
    place.ahead word = true ↔ place.rest ≠ [] ∧ word <+: place.following := by
  unfold ahead following
  split <;> simp_all

theorem behind_iff (place : Cursor) (word : List Char) :
    place.behind word = true ↔ word <:+ place.before.reverse := by
  rw [behind, List.isPrefixOf_iff_prefix, ← List.reverse_suffix, List.reverse_reverse]

end Cursor

end ScriptedMarkup
