import ScriptedMarkup.Draft.Rendering
import ScriptedMarkup.Scan.Notices

/-!
# Function bodies

`Body.compile` turns a source of script and markup into the text of a function body that returns
what it has written.
-/

namespace ScriptedMarkup.Body

def prologue : String := "'use strict';\n"

def epilogue : String := "\nreturn " ++ outputName ++ ".write ();"

def start (names : NameSupply) : Scan := { draft := .ofCode prologue, names }

def scan (names : NameSupply) (source : String) : Scan :=
  (start names).run (Signal.ofSource source)

/-- The complete draft after a scan. What is held of an unfinished capture is dropped, and an open
literal is closed. -/
def finish (scan : Scan) : Draft :=
  let kept := if scan.lexing.capture.isSome then scan.draft.release.2 else scan.draft
  let closed := if scan.lexing.mode = .markup then kept.push .closeLiteral else kept
  closed.code epilogue

def draft (names : NameSupply) (source : String) : Draft := finish (scan names source)

/-- The text of a source's body, and the names that are left. -/
def compile (names : NameSupply) (source : String) : String × NameSupply :=
  let scanned := scan names source
  ((finish scanned).render, scanned.names)

/-- What there is to say about the end of a scan. -/
def closingNotices (scan : Scan) : List Notice :=
  let draft := finish scan
  (scan.lexing.capture.map Notice.unfinished).toList ++
    [.assembled draft.size draft.helpers.length]

def notices (names : NameSupply) (source : String) : List Notice :=
  (start names).notices (Signal.ofSource source) ++ closingNotices (scan names source)

end ScriptedMarkup.Body
