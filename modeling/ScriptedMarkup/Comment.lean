/-!
# Comments

A comment runs from an opening delimiter to the first place after its first character where the
text read so far ends with the closing delimiter. The closing delimiter may share characters with
the opening one. Comments do not nest, and one that does not close is no comment.
-/

namespace ScriptedMarkup

/-- A kind of comment. -/
structure Comment where
  opening : List Char
  closing : List Char
  deriving DecidableEq, Repr

/-- A text without its comments. -/
structure Uncommented where
  kept : List Char
  /-- The number of the character that opens a comment which does not close. -/
  unclosed : Option Nat := none
  deriving DecidableEq, Repr

namespace Comment

mutual

/-- Reads on outside comments, after the reverse of `before`. -/
def outside (comment : Comment) (before : List Char) : List Char → Uncommented
  | [] => { kept := [] }
  | c :: rest =>
    if comment.opening.isPrefixOf (c :: rest) then
      (comment.inside (c :: before) rest).getD
        { kept := c :: rest, unclosed := some before.length }
    else
      let after := comment.outside (c :: before) rest
      { after with kept := c :: after.kept }

/-- Reads on inside a comment, after the reverse of `before`. Gives nothing when the comment does
not close. -/
def inside (comment : Comment) (before : List Char) : List Char → Option Uncommented
  | [] => none
  | c :: rest =>
    if comment.closing.reverse.isPrefixOf (c :: before) then
      some (comment.outside (c :: before) rest)
    else comment.inside (c :: before) rest

end

/-- Leaves out all comments of a kind. A kind with an empty delimiter has no comments. -/
def strip (comment : Comment) (text : List Char) : Uncommented :=
  if comment.opening.isEmpty || comment.closing.isEmpty then { kept := text }
  else comment.outside [] text

def markup : Comment := ⟨['<', '!', '-', '-'], ['-', '-', '>']⟩

def block : Comment := ⟨['/', '*'], ['*', '/']⟩

def stripAll (text : List Char) : List Char := (block.strip (markup.strip text).kept).kept

end Comment

end ScriptedMarkup
