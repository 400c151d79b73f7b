import ScriptedMarkup.Pragma.Extraction
import ScriptedMarkup.Text.Lines

/-!
# Compiled functions

The result of a compilation: a function body, with the parameters that it expects.
-/

namespace ScriptedMarkup

/-- A function body with its parameters. -/
structure CompiledFunction where
  body : String
  /-- The parameters in order. One that is declared twice is listed twice. -/
  parameters : List String
  pragmas : List PlacedPragma
  deriving DecidableEq, Repr

/-- The text of the whole function. A line end at the end of the body is not written twice. -/
def CompiledFunction.render (function : CompiledFunction) : String :=
  let arguments :=
    if function.parameters.isEmpty then "()"
    else "( " ++ String.intercalate ", " function.parameters ++ " )"
  "function " ++ arguments ++ " \x7b\n" ++
    String.ofList (Text.dropFinal '\n' function.body.toList) ++ "\n\x7d"

end ScriptedMarkup
