import ScriptedMarkup.Body

/-!
# Manuscripts

A `Manuscript` is a body that is written as one text, beside the scan of a source. Whatever is
written comes at the end, but for declarations: these are put into the text where the open literal
starts (`declare`), which moves all that comes later.
-/

namespace ScriptedMarkup

/-- A body that is written as one text. -/
structure Manuscript where
  body : List Char
  /-- Where in the text the open literal starts. -/
  spot : Nat := 0
  /-- The text of the bound capture so far. -/
  held : List Char := []
  /-- Whether a dash in the text of a literal was written last. -/
  dashed : Bool := false
  deriving DecidableEq, Repr

namespace Manuscript

def ofText (text : String) : Manuscript := { body := text.toList }

def write (manuscript : Manuscript) (text : String) : Manuscript :=
  { manuscript with body := manuscript.body ++ text.toList, dashed := false }

def textChar (manuscript : Manuscript) (c : Char) : Manuscript :=
  { manuscript with body := manuscript.body ++ Text.escapeChar c, dashed := c == '-' }

/-- The dash that marks a call as one that forgets is struck out, if it was written last. -/
def writeCall (manuscript : Manuscript) : AttributeCall → Manuscript
  | .pop name =>
    let kept := if manuscript.dashed then manuscript.body.dropLast else manuscript.body
    { manuscript with body := kept }.write (Piece.call (.pop name)).render
  | call => manuscript.write (Piece.call call).render

def declaration (manuscript : Manuscript) (binding : Binding) (name : String) : List Char :=
  let helper : Helper :=
    { anchor := manuscript.spot, binding, name, body := String.ofList manuscript.held }
  helper.render.toList ++ ['\n']

/-- Puts a declaration of the held text on lines of its own before the open literal. -/
def declare (manuscript : Manuscript) (binding : Binding) (name : String) : Manuscript :=
  let declaration := manuscript.declaration binding name
  { manuscript with
    body :=
      manuscript.body.take manuscript.spot ++ declaration ++ manuscript.body.drop manuscript.spot
    spot := manuscript.spot + declaration.length }

/-- What comes after the text of an expression. -/
def pending : Option Capture → String
  | some .expression => ") + '"
  | _ => ""

def perform (manuscript : Manuscript) (names : NameSupply) : Act → Manuscript
  | .openLiteral =>
    { manuscript.write Piece.openLiteral.render with spot := manuscript.body.length }
  | .beginCapture .expression => manuscript.write "' + ("
  | .beginCapture (.bound _) => { manuscript with held := [] }
  | .endCapture .expression => manuscript.write (pending (some .expression))
  | .endCapture (.bound binding) =>
    (manuscript.declare binding names.next.1).write (Piece.reference binding names.next.1).render
  | .shorthand (.write call _) => manuscript.writeCall call
  | _ => manuscript

def extend (manuscript : Manuscript) (lexing : Lexing) (c : Char) : Manuscript :=
  match lexing.capture, lexing.mode with
  | some .expression, _ => manuscript.write (String.singleton c)
  | some (.bound _), _ => { manuscript with held := manuscript.held ++ [c] }
  | none, .script => manuscript.write (String.singleton c)
  | none, .markup => manuscript.textChar c
  | none, .tag => manuscript

def receive (manuscript : Manuscript) (lexing : Lexing) (c : Char) : Manuscript :=
  if lexing.passes then manuscript.extend lexing c else manuscript

def endLine (manuscript : Manuscript) (lexing : Lexing) : Manuscript :=
  match lexing.capture, lexing.mode with
  | none, .markup =>
    if lexing.continues then manuscript.write Piece.lineBreak.render
    else (manuscript.write Piece.closeLiteral.render).write "\n"
  | none, _ => manuscript.write "\n"
  | some _, _ => manuscript.extend lexing '\n'

/-- What is written for a signal that a scan meets. -/
def step (manuscript : Manuscript) (scan : Scan) : Signal → Manuscript
  | .lineStart _ => manuscript
  | .visit c place =>
    let act := Act.read scan.lexing c place
    (manuscript.perform scan.names act).receive (scan.perform act).lexing c
  | .lineEnd _ => manuscript.endLine scan.lexing

/-- What is written while a scan goes through signals. -/
def run (manuscript : Manuscript) (scan : Scan) : List Signal → Manuscript
  | [] => manuscript
  | signal :: more => (manuscript.step scan signal).run (scan.step signal) more

/-- What is written after a scan: an expression is ended, and an open literal is closed. -/
def finish (manuscript : Manuscript) (lexing : Lexing) : Manuscript :=
  let ended := manuscript.write (pending lexing.capture)
  let closed := if lexing.mode = .markup then ended.write Piece.closeLiteral.render else ended
  closed.write Body.epilogue

end Manuscript

end ScriptedMarkup
