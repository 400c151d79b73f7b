import ScriptedMarkup.Helper
import ScriptedMarkup.Piece

/-!
# Drafts

A `Draft` is a function body in the making: its pieces, its helpers, and the text of a bound
capture that is not finished. Neighbouring statements make one piece, and so do neighbouring
characters of a literal.
-/

namespace ScriptedMarkup

/-- A function body in the making. -/
structure Draft where
  /-- The pieces, the last one first. -/
  recent : List Piece := []
  helpers : List Helper := []
  /-- The text of the bound capture so far. -/
  held : Option String := none
  deriving DecidableEq, Repr

namespace Draft

def pieces (draft : Draft) : List Piece := draft.recent.reverse

def size (draft : Draft) : Nat := draft.recent.length

def push (draft : Draft) (piece : Piece) : Draft :=
  { draft with recent := piece :: draft.recent }

@[simp]
theorem pieces_push (draft : Draft) (piece : Piece) :
    (draft.push piece).pieces = draft.pieces ++ [piece] := by
  simp [push, pieces]

@[simp]
theorem size_eq_length (draft : Draft) : draft.pieces.length = draft.size := by
  simp [pieces, size]

/-! ### Statements -/

def code (draft : Draft) (text : String) : Draft :=
  if text.isEmpty then draft
  else
    match draft.recent with
    | .code before :: recent => { draft with recent := .code (before ++ text) :: recent }
    | recent => { draft with recent := .code text :: recent }

def codeChar (draft : Draft) (c : Char) : Draft :=
  match draft.recent with
  | .code before :: recent => { draft with recent := .code (before.push c) :: recent }
  | recent => { draft with recent := .code (String.singleton c) :: recent }

def ofCode (text : String) : Draft := ({} : Draft).code text

/-! ### Literals -/

def textChar (draft : Draft) (c : Char) : Draft :=
  match draft.recent with
  | .text before :: recent => { draft with recent := .text (before.push c) :: recent }
  | recent => { draft with recent := .text (String.singleton c) :: recent }

/-- Takes `c` back from the end of a literal's characters. There is nothing to take back unless
the last piece is such characters and `c` is the last of them. -/
def trimText? (draft : Draft) (c : Char) : Option Draft :=
  match draft.recent with
  | .text content :: recent =>
    if content.toList.getLast? = some c then
      match content.toList.dropLast with
      | [] => some { draft with recent := recent }
      | kept => some { draft with recent := .text (String.ofList kept) :: recent }
    else none
  | _ => none

/-- Adds an attribute call. The dash that marks a call as one that forgets is taken back. -/
def writeCall (draft : Draft) : AttributeCall → Draft
  | .pop name => ((draft.trimText? '-').getD draft).push (.call (.pop name))
  | call => draft.push (.call call)

/-! ### Captures -/

/-- Adds one character to the expression that the last piece is. -/
def expressionChar (draft : Draft) (c : Char) : Draft :=
  match draft.recent with
  | .expression before :: recent =>
    { draft with recent := .expression (before.push c) :: recent }
  | _ => draft

/-- Starts to hold the text of a bound capture. -/
def hold (draft : Draft) : Draft := { draft with held := some "" }

def heldChar (draft : Draft) (c : Char) : Draft :=
  { draft with held := draft.held.map (·.push c) }

/-- The text that is held, and the draft that no longer holds it. -/
def release (draft : Draft) : String × Draft :=
  (draft.held.getD "", { draft with held := none })

def hoist (draft : Draft) (helper : Helper) : Draft :=
  { draft with helpers := draft.helpers ++ [helper] }

end Draft

end ScriptedMarkup
