import ScriptedMarkup.Request.Basic

/-!
# What a request comes to

A request fails when a template is nested in its source without comments (`compile_of_nested`), and
then takes no names. Otherwise its script is compiled (`compile_of_plain`).
-/

namespace ScriptedMarkup

/-- The parameters come from what the pragmas say, wherever they stand. -/
theorem Preparation.parameters_eq (prepared : Preparation) :
    prepared.parameters = (prepared.pragmas.map (·.pragma)).filterMap Pragma.parameter? := by
  rw [List.filterMap_map]
  rfl

namespace Request

variable {request : Request}

/-- The error of a request, which neither its directives nor its hook have a part in. -/
def error? (request : Request) : Option TemplateError := TemplateError.ofText? request.uncommented

def plain (request : Request) : String := String.ofList (Pragma.erase request.uncommented)

/-- What the hook makes of the text without pragmas, and the header that it makes. -/
def directed (request : Request) : String × Header :=
  match request.hook? with
  | some hook => hook request.plain request.directives {}
  | none => (request.plain, {})

/-- What is known about a template that holds no other. -/
def preparation (request : Request) : Preparation where
  pragmas := Pragma.found request.uncommented
  plain := request.plain
  directed := request.directed.1
  header := request.directed.2

theorem script_of_unhooked (unhooked : request.hook? = none) :
    request.preparation.script =
      ({} : Header).render request.preparation.parameters ++ request.plain := by
  unfold Preparation.script preparation directed
  rw [unhooked]

theorem prepare_eq (request : Request) :
    request.prepare =
      match request.error? with
      | some error => .error error
      | none => .ok request.preparation := rfl

theorem compile_of_nested {error : TemplateError} (nested : request.error? = some error)
    (names : NameSupply) : request.compile names = (.error error, names) := by
  rw [compile, prepare_eq, nested]

theorem compile_of_plain (plain : request.error? = none) (names : NameSupply) :
    request.compile names =
      (.ok { body := (Body.compile names request.preparation.script).1
             parameters := request.preparation.parameters
             pragmas := request.preparation.pragmas },
        (Body.compile names request.preparation.script).2) := by
  rw [compile, prepare_eq, plain]

end Request

end ScriptedMarkup
