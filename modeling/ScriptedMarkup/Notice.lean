import ScriptedMarkup.Capture
import ScriptedMarkup.Location

/-!
# Notices

What a compilation has to say on its way, beside its result. A notice is a cause;
`Notice.message` words it.
-/

namespace ScriptedMarkup

inductive Level where
  | trace
  | debug
  | warn
  deriving DecidableEq, Repr

def Level.label : Level → String
  | trace => "TRACE"
  | debug => "DEBUG"
  | warn => "WARN"

/-- The stages that a source goes through, in order. -/
inductive Stage where
  | uncomment
  | validate
  | extract
  | direct
  | define
  | compile
  deriving DecidableEq, Repr

def Stage.label : Stage → String
  | uncomment => "Uncomment"
  | validate => "Validate"
  | extract => "Extract"
  | direct => "Direct"
  | define => "Define"
  | compile => "Compile"

/-- Something that a compilation says on its way. -/
inductive Notice where
  /-- A stage starts on a text of this many bytes. -/
  | entered (stage : Stage) (bytes : Nat)
  /-- The comment at this character has no end. -/
  | unclosedComment (start : Nat)
  /-- A parameter pragma does not name a parameter. -/
  | namelessParameter (place : Location)
  /-- A pragma has a tag without a meaning. -/
  | idlePragma (tag : String) (place : Location)
  /-- Nothing looks at the directives. -/
  | directivesUnused (count : Nat)
  /-- An `@` follows another one, on this line. -/
  | repeatedShorthand (line : Nat)
  /-- An `@` comes first in the capture of a callback, on this line. -/
  | leadingShorthand (line : Nat)
  /-- An `@` has no name after it, on this line. -/
  | namelessShorthand (line : Nat)
  /-- A capture is bound to a name, before the piece with number `anchor`. -/
  | hoisted (name : String) (binding : Binding) (anchor : Nat)
  | unfinished (capture : Capture)
  | assembled (pieces helpers : Nat)
  | compiled (parameters pragmas issued : Nat)
  deriving DecidableEq, Repr

namespace Notice

def level : Notice → Level
  | entered .. | unclosedComment .. | directivesUnused .. | hoisted .. | assembled .. => .trace
  | idlePragma .. | compiled .. => .debug
  | namelessParameter .. | repeatedShorthand .. | leadingShorthand .. | namelessShorthand ..
  | unfinished .. => .warn

def message : Notice → String
  | entered stage bytes => stage.label ++ ": " ++ Nat.repr bytes ++ " bytes in"
  | unclosedComment start =>
    "unclosed comment at char " ++ Nat.repr start ++ " left in place"
  | namelessParameter place => "param instruction at " ++ place.text ++ " has no name"
  | idlePragma tag place => "instruction '" ++ tag ++ "' at " ++ place.text ++ " has no effect"
  | directivesUnused count => Nat.repr count ++ " directives passed through"
  | repeatedShorthand line =>
    "line " ++ Nat.repr line ++ ": '@' after '@' is not supported, skipped"
  | leadingShorthand line =>
    "line " ++ Nat.repr line ++
      ": attribute shorthand in a '#\x7b' binding is not supported, skipped"
  | namelessShorthand line =>
    "line " ++ Nat.repr line ++ ": '@' is not followed by an attribute name"
  | hoisted name binding anchor =>
    "hoisting " ++ name ++ " (" ++ binding.label ++ ") at node " ++ Nat.repr anchor
  | unfinished capture => capture.label ++ " capture still open at end of input, dropped"
  | assembled pieces helpers =>
    "compiled " ++ Nat.repr pieces ++ " nodes, " ++ Nat.repr helpers ++ " outlines"
  | compiled parameters pragmas issued =>
    "compiled template: " ++ Nat.repr parameters ++ " params, " ++ Nat.repr pragmas ++
      " instructions, " ++ Nat.repr issued ++ " names issued"

def text (notice : Notice) : String := notice.level.label ++ " " ++ notice.message

end Notice

end ScriptedMarkup
