/-!
# Quoted text

`escape` writes a text so that it can stand between single quotes.
-/

namespace ScriptedMarkup.Text

/-- How a character is written between single quotes. -/
def escapeChar (c : Char) : List Char :=
  if c = '\\' then ['\\', '\\'] else if c = '\'' then ['\\', '\''] else [c]

/-- A text as it is written between single quotes: backslashes and quotes get a backslash. -/
def escape (text : String) : String :=
  String.ofList (text.toList.flatMap escapeChar)

@[simp]
theorem toList_escape (text : String) :
    (escape text).toList = text.toList.flatMap escapeChar := by
  simp [escape]

end ScriptedMarkup.Text
