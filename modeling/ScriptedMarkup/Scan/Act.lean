import ScriptedMarkup.Scan.Lexing
import ScriptedMarkup.Scan.Shorthand

/-!
# Acts

`Act.read` decides what a scan does about a character, from the lexical state and the place
alone. Most characters ask for nothing.
-/

namespace ScriptedMarkup

/-- What a scan does about a character, before the character itself is passed on or not. -/
inductive Act where
  | pass
  | openLiteral
  | beginCapture (capture : Capture)
  | deepen
  | rise
  | endCapture (capture : Capture)
  /-- Leaves out a plus sign that starts its line. -/
  | lead
  /-- Carries the literal on past the line, leaving out the plus sign that ends it. -/
  | carry
  | shorthand (shorthand : Shorthand)
  /-- Notes a reference in a tag. -/
  | refer
  | leaveTag
  deriving DecidableEq, Repr

namespace Act

def inScript (c : Char) (place : Cursor) : Act :=
  if c = '<' ∧ place.isFirst then openLiteral else pass

def inTag (c : Char) (place : Cursor) : Act :=
  if c = '$' ∧ place.ahead ['{'] then refer else if c = '>' then leaveTag else pass

/-- What is done about a character of markup while a capture is active. -/
def inCapture (capture : Capture) (depth : Nat) (c : Char) (place : Cursor) : Act :=
  if c = '{' then deepen
  else if c = '}' then if depth ≤ 1 then endCapture capture else rise
  else if c = '@' then shorthand (.read true place)
  else pass

/-- What is done about a character of markup outside captures. -/
def inMarkup (c : Char) (place : Cursor) : Act :=
  if c = '+' then if place.isFirst then lead else if place.isLast then carry else pass
  else if c = '@' then shorthand (.read false place)
  else
    match Capture.ofSigil? c with
    | some capture => if place.ahead ['{'] then beginCapture capture else pass
    | none => pass

def read (lexing : Lexing) (c : Char) (place : Cursor) : Act :=
  match lexing.mode, lexing.capture with
  | .script, _ => inScript c place
  | .tag, _ => inTag c place
  | .markup, some capture => inCapture capture lexing.depth c place
  | .markup, none => inMarkup c place

end Act

end ScriptedMarkup
