import ScriptedMarkup.Capture

/-!
# Helpers

A helper is the declaration of a bound capture. It stands before the markup that refers to it.
-/

namespace ScriptedMarkup

/-- The declaration of a bound capture. -/
structure Helper where
  /-- The number of the piece that the declaration stands before. -/
  anchor : Nat
  binding : Binding
  name : String
  body : String
  deriving DecidableEq, Repr

def Helper.render (helper : Helper) : String :=
  match helper.binding with
  | .callback =>
    "var " ++ helper.name ++ " = edb.$set(function(value, checked) \x7b\n" ++ helper.body ++
      ";\n\x7d, this);"
  | .getter =>
    "var " ++ helper.name ++ " = edb.$set(function() \x7b\nreturn " ++ helper.body ++
      ";\n\x7d, this);"

end ScriptedMarkup
