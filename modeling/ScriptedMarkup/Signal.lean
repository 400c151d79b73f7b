import ScriptedMarkup.Cursor
import ScriptedMarkup.Text.Lines

/-!
# Signals

A source is presented as a list of signals: for each line its start, its characters and its end.
Each signal carries the place that it is about.
-/

namespace ScriptedMarkup

/-- What a reader meets when it goes through a source. -/
inductive Signal where
  | lineStart (place : Cursor)
  | visit (c : Char) (place : Cursor)
  | lineEnd (place : Cursor)
  deriving DecidableEq, Repr

namespace Signal

def place : Signal → Cursor
  | lineStart place | visit _ place | lineEnd place => place

/-- One visit for each character of `rest`, on a line that starts with the reverse of `before`. -/
def visits (line : Nat) (before : List Char) : List Char → List Signal
  | [] => []
  | c :: rest => visit c ⟨line, before, c :: rest⟩ :: visits line (c :: before) rest

def ofLine (line : Nat) (text : List Char) : List Signal :=
  lineStart (.start line text) :: visits line [] text ++ [lineEnd (.final line text)]

def ofLines (line : Nat) : List (List Char) → List Signal
  | [] => []
  | text :: more => ofLine line text ++ ofLines (line + 1) more

def ofSource (source : String) : List Signal := ofLines 1 (Text.lines source.toList)

end Signal

end ScriptedMarkup
