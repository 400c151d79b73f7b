/-!
# Nested templates

A template may not hold the script element of another one. `NestedTemplate.find?` looks for the
first place where such an element starts: a script tag that has the template type among its
attributes and closes on the same line, with something after it.
-/

namespace ScriptedMarkup.NestedTemplate

def scriptTag : List Char := ['<', 's', 'c', 'r', 'i', 'p', 't']

def typeAttribute : List Char := ['t', 'y', 'p', 'e', '=']

def templateType : List Char := ['t', 'e', 'x', 't', '/', 'e', 'd', 'b', 'm', 'l']

/-- Whether a closing bracket with something after it comes on this line. -/
def closes : List Char → Bool
  | [] => false
  | c :: rest => c != '\n' && (c == '>' && !rest.isEmpty || closes rest)

def skipQuote : List Char → List Char
  | [] => []
  | c :: rest => if c = '"' ∨ c = '\'' then rest else c :: rest

/-- Whether the template type stands at the front of a text, in a tag that closes. -/
def isType (text : List Char) : Bool :=
  match typeAttribute.isPrefixOf? text with
  | none => false
  | some rest =>
    match templateType.isPrefixOf? (skipQuote rest) with
    | none => false
    | some rest => closes rest

/-- Whether the template type comes on this line, in a tag that closes. -/
def hasType : List Char → Bool
  | [] => false
  | c :: rest => isType (c :: rest) || (c != '\n' && hasType rest)

/-- Whether a nested template starts at the front of a text. -/
def starts (text : List Char) : Bool :=
  match scriptTag.isPrefixOf? text with
  | none => false
  | some rest => hasType rest

/-- The text before the first nested template. -/
def find? : List Char → Option (List Char)
  | [] => none
  | c :: rest => if starts (c :: rest) then some [] else (find? rest).map (c :: ·)

end ScriptedMarkup.NestedTemplate
