import ScriptedMarkup.Request.Basic

/-!
# Notices of a request

What a compilation says, stage by stage. A template that does not compile has nothing to say
after the stage that refuses it.
-/

namespace ScriptedMarkup

def Comment.notices (text : List Char) : List Notice :=
  let first := markup.strip text
  let second := block.strip first.kept
  (first.unclosed.toList ++ second.unclosed.toList).map .unclosedComment

def PlacedPragma.notice? (placed : PlacedPragma) : Option Notice :=
  if placed.pragma.tag ≠ "param" then some (.idlePragma placed.pragma.tag placed.place)
  else if placed.pragma.parameter?.isNone then some (.namelessParameter placed.place)
  else none

namespace Request

def directiveNotices (request : Request) : List Notice :=
  if request.hook?.isNone && !request.directives.isEmpty then
    [.directivesUnused request.directives.size]
  else []

/-- What there is to say about the stages after the template has been found in order. -/
def preparedNotices (request : Request) (prepared : Preparation) (names : NameSupply) :
    List Notice :=
  [.entered .extract (Text.bytes request.uncommented).length] ++
    prepared.pragmas.filterMap PlacedPragma.notice? ++
    [.entered .direct prepared.plain.utf8ByteSize] ++ request.directiveNotices ++
    [.entered .define prepared.directed.utf8ByteSize,
      .entered .compile prepared.script.utf8ByteSize] ++
    Body.notices names prepared.script ++
    [.compiled prepared.parameters.length prepared.pragmas.length
      (Body.compile names prepared.script).2.issued]

def notices (request : Request) (names : NameSupply) : List Notice :=
  [.entered .uncomment request.source.utf8ByteSize] ++ Comment.notices request.source.toList ++
    [.entered .validate (Text.bytes request.uncommented).length] ++
    match request.prepare with
    | .error _ => []
    | .ok prepared => request.preparedNotices prepared names

end Request

end ScriptedMarkup
