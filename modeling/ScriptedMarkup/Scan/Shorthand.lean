import ScriptedMarkup.Cursor
import ScriptedMarkup.Piece
import ScriptedMarkup.Text.Name

/-!
# Attribute shorthand

In markup `@name` stands for an attribute call, `-@name` for one that also forgets the attribute,
and `@@` for all attributes. `Shorthand.read` decides what an `@` stands for.
-/

namespace ScriptedMarkup

/-- What an `@` in markup stands for. -/
inductive Shorthand where
  /-- A call, written with this many characters from the `@` on. -/
  | write (call : AttributeCall) (width : Nat)
  /-- Nothing, as it follows another `@`. -/
  | repeated
  /-- Nothing, as it comes first in the capture of a callback. -/
  | leading
  /-- Nothing, as it is captured. -/
  | captured
  /-- Nothing, as no name follows. -/
  | nameless
  deriving DecidableEq, Repr

namespace Shorthand

def startsName (c : Char) : Bool := c.isAlpha || c == '_' || c == '.' || c == '-'

def continuesName (c : Char) : Bool := startsName c || c.isDigit

/-- What the `@` at a place stands for, in a capture or outside. -/
def read (capturing : Bool) (place : Cursor) : Shorthand :=
  if place.behind ['@'] then repeated
  else if place.behind ['#', '{'] then leading
  else if capturing then captured
  else if place.ahead ['@'] then write .all 2
  else
    match Text.name? startsName continuesName place.following with
    | none => nameless
    | some (name, _) =>
      let call := if place.behind ['-'] then AttributeCall.pop else AttributeCall.html
      write (call (String.ofList name)) (name.length + 1)

end Shorthand

end ScriptedMarkup
