import ScriptedMarkup.Draft.Basic
import ScriptedMarkup.NameSupply
import ScriptedMarkup.Scan.Act
import ScriptedMarkup.Signal

/-!
# Scans

A `Scan` goes through the signals of a source and turns lines of script and markup into a draft.
A line that starts with `<` opens a literal, which ends with its line unless a plus sign at the
end of the line, or at the start of the next one, carries it on.
-/

namespace ScriptedMarkup

structure Scan where
  lexing : Lexing := {}
  draft : Draft := {}
  names : NameSupply := {}
  deriving DecidableEq, Repr

namespace Scan

/-- The draft with `c` added to what is being read. -/
def extend (scan : Scan) (c : Char) : Draft :=
  match scan.lexing.capture, scan.lexing.mode with
  | some .expression, _ => scan.draft.expressionChar c
  | some (.bound _), _ => scan.draft.heldChar c
  | none, .script => scan.draft.codeChar c
  | none, .markup => scan.draft.textChar c
  | none, .tag => scan.draft

/-- Passes a character on, unless it is withheld. -/
def receive (scan : Scan) (c : Char) : Scan :=
  if scan.lexing.passes then { scan with draft := scan.extend c }
  else { scan with lexing := scan.lexing.consume }

/-- Gives the captured text the next name: a helper declares it, and the literal refers to it. -/
def bind (scan : Scan) (binding : Binding) : Scan :=
  let (name, names) := scan.names.next
  let (body, draft) := scan.draft.release
  let helper := { anchor := scan.lexing.anchor, binding, name, body }
  { scan with draft := (draft.hoist helper).push (.reference binding name), names }

def perform (scan : Scan) : Act → Scan
  | .openLiteral =>
    { scan with
      lexing := { scan.lexing.enter .markup with anchor := scan.draft.size }
      draft := scan.draft.push .openLiteral }
  | .beginCapture capture =>
    { scan with
      lexing := scan.lexing.beginCapture capture
      draft :=
        match capture with
        | .expression => scan.draft.push (.expression "")
        | .bound _ => scan.draft.hold }
  | .deepen => { scan with lexing := { scan.lexing with depth := scan.lexing.depth + 1 } }
  | .rise => { scan with lexing := { scan.lexing with depth := scan.lexing.depth - 1 } }
  | .endCapture capture =>
    let ended := { scan with lexing := scan.lexing.endCapture }
    match capture with
    | .expression => ended
    | .bound binding => ended.bind binding
  | .lead =>
    { scan with lexing := { scan.lexing with withheld := if scan.lexing.plusLed then 1 else 0 } }
  | .carry => { scan with lexing := { scan.lexing with continues := true, withheld := 1 } }
  | .shorthand (.write call width) =>
    { scan with
      lexing := { scan.lexing with withheld := width }
      draft := scan.draft.writeCall call }
  | .refer => { scan with lexing := { scan.lexing with refers := true, withheld := 2 } }
  | .leaveTag => { scan with lexing := { scan.lexing.enter .script with withheld := 1 } }
  | .pass | .shorthand _ => scan

/-- Notes whether the line starts with a plus sign, which carries an open literal on. -/
def startLine (scan : Scan) (place : Cursor) : Scan :=
  let plusLed := place.firstChar? == some '+'
  let continues := scan.lexing.continues ||
    (scan.lexing.mode == .markup && plusLed && scan.lexing.capture.isNone)
  { scan with lexing := { scan.lexing with plusLed, continues } }

/-- Ends a line: within a capture it is captured, and a literal that is not carried on closes. -/
def endLine (scan : Scan) : Scan :=
  let lexing := { scan.lexing with continues := false }
  match lexing.capture, lexing.mode with
  | none, .markup =>
    if scan.lexing.continues then { scan with lexing, draft := scan.draft.push .lineBreak }
    else
      { scan with
        lexing := lexing.enter .script
        draft := (scan.draft.push .closeLiteral).codeChar '\n' }
  | none, _ => { scan with lexing, draft := scan.draft.codeChar '\n' }
  | some _, _ => { scan with lexing, draft := scan.extend '\n' }

def step (scan : Scan) : Signal → Scan
  | .lineStart place => scan.startLine place
  | .visit c place => (scan.perform (.read scan.lexing c place)).receive c
  | .lineEnd _ => scan.endLine

def run (scan : Scan) (signals : List Signal) : Scan := signals.foldl step scan

/-- The states after each signal of a list. -/
def states (scan : Scan) : List Signal → List Scan
  | [] => []
  | signal :: more => scan.step signal :: (scan.step signal).states more

@[simp]
theorem run_nil (scan : Scan) : scan.run [] = scan := rfl

@[simp]
theorem run_cons (scan : Scan) (signal : Signal) (more : List Signal) :
    scan.run (signal :: more) = (scan.step signal).run more := rfl

theorem run_append (scan : Scan) (first second : List Signal) :
    scan.run (first ++ second) = (scan.run first).run second := by
  simp [run]

end Scan

end ScriptedMarkup
