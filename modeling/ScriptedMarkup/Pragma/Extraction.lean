import ScriptedMarkup.Location
import ScriptedMarkup.Pragma.Basic

/-!
# Pragmas of a source

A source is a sequence of plain characters and pragmas (`Pragma.segments`). `Pragma.found` lists
the pragmas with their places, and `Pragma.erase` leaves only the characters. Nothing of a source is
outside its segments (`spelling_segments`).
-/

namespace ScriptedMarkup

/-- A part of a source: a character, or a pragma with its spelling. -/
inductive Segment where
  | char (c : Char)
  | pragma (pragma : Pragma) (spelling : List Char)
  deriving DecidableEq, Repr

namespace Segment

def spelling : Segment → List Char
  | char c => [c]
  | pragma _ spelling => spelling

/-- The character that a segment leaves behind when pragmas are taken out. -/
def kept? : Segment → Option Char
  | char c => some c
  | pragma .. => none

end Segment

structure PlacedPragma where
  pragma : Pragma
  place : Location
  deriving DecidableEq, Repr

namespace Pragma

/-- The parts of a source. A pragma is read wherever one can be. -/
def segments (text : List Char) : List Segment :=
  match _read : read? text with
  | some (pragma, rest) =>
    .pragma pragma (text.take (text.length - rest.length)) :: segments rest
  | none =>
    match text with
    | [] => []
    | c :: rest => .char c :: segments rest
termination_by text.length
decreasing_by
  · exact (suffix_of_read? _read).2
  · simp

theorem spelling_segments (text : List Char) :
    (segments text).flatMap Segment.spelling = text := by
  fun_induction segments text with
  | case1 text pragma rest read ih =>
    obtain ⟨spelling, rfl⟩ := (suffix_of_read? read).1
    simp [Segment.spelling, ih]
  | case2 => rfl
  | case3 read c rest ih => simp [Segment.spelling, ih]

/-- The pragmas among segments with their byte offsets, the first segment being at `offset`. -/
def offsets (offset : Nat) : List Segment → List (Pragma × Nat)
  | [] => []
  | segment :: rest =>
    let more := offsets (offset + (Text.bytes segment.spelling).length) rest
    match segment with
    | .char _ => more
    | .pragma pragma _ => (pragma, offset) :: more

def found (source : List Char) : List PlacedPragma :=
  (offsets 0 (segments source)).map fun (pragma, offset) =>
    { pragma, place := .ofOffset source offset }

def erase (source : List Char) : List Char := (segments source).filterMap Segment.kept?

/-- The parameter that a pragma declares, if it declares one by name. -/
def parameter? (pragma : Pragma) : Option String :=
  if pragma.tag = "param" then pragma.value? "name" else none

end Pragma

end ScriptedMarkup
