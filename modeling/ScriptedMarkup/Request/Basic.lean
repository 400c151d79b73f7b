import Std.Data.HashMap
import ScriptedMarkup.Body
import ScriptedMarkup.Comment
import ScriptedMarkup.CompiledFunction
import ScriptedMarkup.Header
import ScriptedMarkup.TemplateError

/-!
# Requests

A `Request` asks for one template to be compiled. `Request.prepare` does all that comes before
the scan, and alone can fail; `Request.compile` then scans the prepared script. The names that
a supply gives out are the only thing that one compilation leaves to the next.
-/

namespace ScriptedMarkup

/-- The attributes of the script element that a template comes from. -/
abbrev Directives := Std.HashMap String String

/-- Rewrites a script in view of the directives, and may add to the header. -/
abbrev Hook := String → Directives → Header → String × Header

structure Request where
  source : String
  directives : Directives := ∅
  hook? : Option Hook := none

/-- What is known about a template before it is scanned. -/
structure Preparation where
  pragmas : List PlacedPragma
  /-- The template without comments and pragmas. -/
  plain : String
  directed : String
  header : Header
  deriving DecidableEq, Repr

namespace Preparation

def parameters (prepared : Preparation) : List String :=
  prepared.pragmas.filterMap fun placed => placed.pragma.parameter?

/-- The script to be scanned. -/
def script (prepared : Preparation) : String :=
  prepared.header.render prepared.parameters ++ prepared.directed

end Preparation

namespace Request

def uncommented (request : Request) : List Char := Comment.stripAll request.source.toList

def prepare (request : Request) : Except TemplateError Preparation :=
  let text := request.uncommented
  match TemplateError.ofText? text with
  | some error => .error error
  | none =>
    let plain := String.ofList (Pragma.erase text)
    let (directed, header) :=
      match request.hook? with
      | some hook => hook plain request.directives {}
      | none => (plain, {})
    .ok { pragmas := Pragma.found text, plain, directed, header }

/-- Compiles a template. A template that does not compile takes no names. -/
def compile (request : Request) (names : NameSupply) :
    Except TemplateError CompiledFunction × NameSupply :=
  match request.prepare with
  | .error error => (.error error, names)
  | .ok prepared =>
    let (body, names) := Body.compile names prepared.script
    (.ok { body, parameters := prepared.parameters, pragmas := prepared.pragmas }, names)

end Request

end ScriptedMarkup
