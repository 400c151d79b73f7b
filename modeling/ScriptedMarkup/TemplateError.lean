import ScriptedMarkup.Location
import ScriptedMarkup.NestedTemplate

/-!
# Errors

The only reason for a template not to compile is a template nested in it.
-/

namespace ScriptedMarkup

/-- Why a template does not compile. -/
inductive TemplateError where
  | nested (place : Location)
  deriving DecidableEq, Repr

namespace TemplateError

def place : TemplateError → Location
  | nested place => place

def reason : TemplateError → String
  | nested _ => "nested EDBML template"

def message (error : TemplateError) : String := error.reason ++ " at " ++ error.place.text

/-- The error of a text, at the first template nested in it. -/
def ofText? (text : List Char) : Option TemplateError :=
  (NestedTemplate.find? text).map fun before => nested (.after (Text.bytes before))

end TemplateError

end ScriptedMarkup
