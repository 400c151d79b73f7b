import ScriptedMarkup.Piece

/-!
# Headers

The header declares what the body uses: the output and attribute objects, the variables that a
hook asks for, and the functions that a hook defines.
-/

namespace ScriptedMarkup

/-- What a hook adds to the header. -/
structure Header where
  /-- Variables, in the order of their first declaration. -/
  declared : List String := []
  definitions : List String := []
  deriving DecidableEq, Repr

namespace Header

/-- Declares a variable, unless it is declared already. -/
def declare (header : Header) (name : String) : Header :=
  if name ∈ header.declared then header
  else { header with declared := header.declared ++ [name] }

def define (header : Header) (definition : String) : Header :=
  { header with definitions := header.definitions ++ [definition] }

/-- The text of a header. The output object is not declared when it is a parameter. -/
def render (header : Header) (parameters : List String) : String :=
  "var " ++
    (if outputName ∈ parameters then "" else outputName ++ " = $function.$out, ") ++
    attributeName ++ " = new edb.Att () " ++
    String.join (header.declared.map (", " ++ ·)) ++ ";\n" ++
    String.join (header.definitions.map (· ++ "\n"))

end Header

end ScriptedMarkup
