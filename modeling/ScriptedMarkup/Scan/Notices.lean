import ScriptedMarkup.Notice
import ScriptedMarkup.Scan.Basic

/-!
# Notices of a scan

Every signal gives at most one notice, which depends on the state before it.
-/

namespace ScriptedMarkup.Scan

/-- What a scan has to say about a signal. The second `@` of a pair is withheld and says
nothing. -/
def notice? (scan : Scan) : Signal → Option Notice
  | .visit c place =>
    match Act.read scan.lexing c place with
    | .endCapture (.bound binding) =>
      some (.hoisted scan.names.next.1 binding scan.lexing.anchor)
    | .shorthand .repeated =>
      if scan.lexing.passes then some (.repeatedShorthand place.line) else none
    | .shorthand .leading => some (.leadingShorthand place.line)
    | .shorthand .nameless => some (.namelessShorthand place.line)
    | _ => none
  | .lineStart _ | .lineEnd _ => none

def notices (scan : Scan) : List Signal → List Notice
  | [] => []
  | signal :: more => (scan.notice? signal).toList ++ (scan.step signal).notices more

end ScriptedMarkup.Scan
