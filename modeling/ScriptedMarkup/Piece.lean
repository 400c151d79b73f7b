import ScriptedMarkup.Capture
import ScriptedMarkup.Text.Quoted

/-!
# Pieces of a function body

The body is a list of pieces: statements, and string literals with calls and expressions spliced
in. `Piece.render` is the text of each. A text with a quote or a backslash is escaped there and
nowhere else.
-/

namespace ScriptedMarkup

/-- What the generated function calls the object that it writes to. -/
def outputName : String := "out"

/-- What the generated function calls the object that writes attributes. -/
def attributeName : String := "att"

inductive AttributeCall where
  | html (name : String)
  /-- Write the attribute of this name and forget it. -/
  | pop (name : String)
  | all
  deriving DecidableEq, Repr

/-- A piece of a function body. -/
inductive Piece where
  | code (statements : String)
  | openLiteral
  | text (content : String)
  /-- An expression within a string literal. -/
  | expression (source : String)
  | call (attributes : AttributeCall)
  /-- A call, in the text of a string literal, of what a name is bound to. -/
  | reference (binding : Binding) (name : String)
  | lineBreak
  | closeLiteral
  deriving DecidableEq, Repr

/-- Ends a literal, adds an operand, and starts a literal again. -/
def splice (operand : String) : String := "' + " ++ operand ++ " + '"

def AttributeCall.render : AttributeCall → String
  | html name => attributeName ++ ".$html ( '" ++ Text.escape name ++ "' )"
  | pop name => attributeName ++ ".$pop ( '" ++ Text.escape name ++ "' )"
  | all => attributeName ++ ".$all()"

def Piece.render : Piece → String
  | code statements => statements
  | openLiteral => outputName ++ ".html += '"
  | text content => Text.escape content
  | expression source => splice ("(" ++ source ++ ")")
  | call attributes => splice attributes.render
  | reference .callback name => "edb.$run(event,&quot;" ++ splice name ++ "&quot;);"
  | reference .getter name => "edb.$get(&quot;" ++ splice name ++ "&quot;);"
  | lineBreak => "' +\n'"
  | closeLiteral => "';"

namespace Piece

@[simp]
theorem render_code (statements : String) : (code statements).render = statements := rfl

@[simp]
theorem render_text (content : String) : (text content).render = Text.escape content := rfl

@[simp]
theorem render_expression (source : String) :
    (expression source).render = splice ("(" ++ source ++ ")") := rfl

@[simp]
theorem render_call (attributes : AttributeCall) :
    (call attributes).render = splice attributes.render := rfl

@[simp]
theorem render_callback (name : String) :
    (reference .callback name).render =
      "edb.$run(event,&quot;" ++ splice name ++ "&quot;);" := rfl

@[simp]
theorem render_getter (name : String) :
    (reference .getter name).render = "edb.$get(&quot;" ++ splice name ++ "&quot;);" := rfl

@[simp]
theorem render_openLiteral : openLiteral.render = outputName ++ ".html += '" := rfl

@[simp]
theorem render_lineBreak : lineBreak.render = "' +\n'" := rfl

@[simp]
theorem render_closeLiteral : closeLiteral.render = "';" := rfl

end Piece

end ScriptedMarkup
