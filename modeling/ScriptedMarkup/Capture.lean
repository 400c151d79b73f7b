/-!
# Captures

Markup holds script text between braces. The sigil before the opening brace says what becomes of
the text: an expression is spliced in, a callback or getter is bound to a name of its own.
-/

namespace ScriptedMarkup

/-- How captured text is bound to a name. -/
inductive Binding where
  /-- Run on an event, with the value and the checked state. -/
  | callback
  /-- Run to read a value. -/
  | getter
  deriving DecidableEq, Repr

/-- What becomes of captured text. -/
inductive Capture where
  | expression
  | bound (binding : Binding)
  deriving DecidableEq, Repr

def Binding.label : Binding → String
  | callback => "Poke"
  | getter => "Geek"

def Capture.label : Capture → String
  | expression => "Peek"
  | bound binding => binding.label

def Capture.ofSigil? : Char → Option Capture
  | '$' => some expression
  | '#' => some (bound .callback)
  | '?' => some (bound .getter)
  | _ => none

end ScriptedMarkup
