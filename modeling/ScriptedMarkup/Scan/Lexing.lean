import ScriptedMarkup.Capture

/-!
# Lexical state

What a scan remembers between two characters, apart from what it has produced.
-/

namespace ScriptedMarkup

/-- What characters are read as. -/
inductive Mode where
  | script
  | markup
  /-- The inside of an opening tag. -/
  | tag
  deriving DecidableEq, Repr

/-- What a scan remembers between two characters. -/
structure Lexing where
  mode : Mode := .script
  /-- Whether the line starts with a plus sign. -/
  plusLed : Bool := false
  /-- Whether the literal goes on past the end of the line. -/
  continues : Bool := false
  /-- The capture that is active. At most one is. -/
  capture : Option Capture := none
  depth : Nat := 0
  /-- How many of the next characters are not passed on. -/
  withheld : Nat := 0
  /-- The number of the piece that opened the literal. -/
  anchor : Nat := 0
  refers : Bool := false
  deriving DecidableEq, Repr

namespace Lexing

/-- Reads on in another mode. A tag starts without a reference. -/
def enter (lexing : Lexing) : Mode → Lexing
  | .tag => { lexing with mode := .tag, refers := false }
  | mode => { lexing with mode }

/-- Starts a capture at its sigil. The sigil and the brace after it are not passed on. -/
def beginCapture (lexing : Lexing) (capture : Capture) : Lexing :=
  { lexing with capture := some capture, depth := 0, withheld := 2 }

/-- Ends the capture at its last brace, which is not passed on. -/
def endCapture (lexing : Lexing) : Lexing :=
  { lexing with capture := none, depth := 0, withheld := 1 }

def passes (lexing : Lexing) : Bool := lexing.withheld == 0

def consume (lexing : Lexing) : Lexing := { lexing with withheld := lexing.withheld - 1 }

end Lexing

end ScriptedMarkup
