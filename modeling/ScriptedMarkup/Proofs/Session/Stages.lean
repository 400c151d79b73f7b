import ScriptedMarkup.Notice
import ScriptedMarkup.Proofs.Request.Basic
import ScriptedMarkup.Session

/-!
# Compilation stage by stage

A `Workbench` is all that a compiler keeps: besides its names, the directives and what has been
extracted, which one request overwrites for the next. `Workbench.compile` takes a source through the
six stages until one of them fails. Whatever an earlier request left on the workbench, this comes to
`Request.compile` (`Workbench.compile_of_nested`, `Workbench.compile_of_plain`).
-/

namespace ScriptedMarkup

/-- What a compiler keeps between stages, and between requests. -/
structure Workbench where
  names : NameSupply := {}
  directives : Directives := ∅
  pragmas : List PlacedPragma := []
  parameters : List String := []
  /-- The stages that were entered so far. -/
  entered : List Stage := []

/-- Work on a workbench. Work that fails leaves the workbench as it is then. -/
abbrev Work := ExceptT TemplateError (StateM Workbench)

namespace Work

variable {α β : Type} {work : Work α} {next : α → Work β} {bench later : Workbench}

theorem run_bind_ok {value : α} (done : work.run.run bench = (.ok value, later)) :
    (work >>= next).run.run bench = (next value).run.run later := by
  rw [ExceptT.run_bind, StateT.run_bind, done]
  rfl

theorem run_bind_error {error : TemplateError} (failed : work.run.run bench = (.error error, later)) :
    (work >>= next).run.run bench = (.error error, later) := by
  rw [ExceptT.run_bind, StateT.run_bind, failed]
  rfl

end Work

namespace Stage

def all : List Stage := [uncomment, validate, extract, direct, define, compile]

/-- Takes a text through a stage. -/
def perform (hook? : Option Hook) (stage : Stage) (text : String) (header : Header) :
    Work (String × Header) := do
  modify fun bench => { bench with entered := bench.entered ++ [stage] }
  match stage with
  | uncomment => pure (String.ofList (Comment.stripAll text.toList), header)
  | validate =>
    match TemplateError.ofText? text.toList with
    | some error => throw error
    | none => pure (text, header)
  | extract =>
    modify fun bench =>
      { bench with
        pragmas := bench.pragmas ++ Pragma.found text.toList
        parameters := bench.parameters ++
          (Pragma.found text.toList).filterMap (·.pragma.parameter?) }
    pure (String.ofList (Pragma.erase text.toList), header)
  | direct =>
    match hook? with
    | some hook => pure (hook text (← get).directives header)
    | none => pure (text, header)
  | define => pure (header.render (← get).parameters ++ text, header)
  | compile =>
    let (body, names) := Body.compile (← get).names text
    modify fun bench => { bench with names }
    pure (body, header)

/-- Takes a text through stages, one after another. -/
def performAll (hook? : Option Hook) (stages : List Stage) (start : String × Header) :
    Work (String × Header) :=
  stages.foldlM (fun (text, header) stage => stage.perform hook? text header) start

end Stage

namespace Workbench

def enter (bench : Workbench) (stage : Stage) : Workbench :=
  { bench with entered := bench.entered ++ [stage] }

/-- The workbench for a request, without what was extracted for the last one. -/
def cleared (bench : Workbench) (request : Request) : Workbench :=
  { bench with directives := request.directives, pragmas := [], parameters := [] }

/-- Takes what was extracted off the workbench, for a result with this body. -/
def collect (body : String) : Work CompiledFunction := do
  let { pragmas, parameters, .. } ← get
  modify fun bench => { bench with pragmas := [], parameters := [] }
  pure { body, parameters, pragmas }

/-- Takes a request through all stages. -/
def compile (request : Request) : Work CompiledFunction := do
  modify (·.cleared request)
  let (body, _) ← Stage.performAll request.hook? Stage.all (request.source, {})
  collect body

/-! ### Stages -/

section Stages

variable {hook? : Option Hook} {text : List Char} {header : Header} {bench : Workbench}

theorem run_uncomment (request : Request) :
    (Stage.uncomment.perform hook? request.source header).run.run bench =
      (.ok (String.ofList request.uncommented, header), bench.enter .uncomment) := rfl

theorem run_validate_of_nested {error : TemplateError}
    (nested : TemplateError.ofText? text = some error) :
    (Stage.validate.perform hook? (String.ofList text) header).run.run bench =
      (.error error, bench.enter .validate) := by
  unfold Stage.perform
  simp only [String.toList_ofList, nested]
  rfl

theorem run_validate_of_plain (plain : TemplateError.ofText? text = none) :
    (Stage.validate.perform hook? (String.ofList text) header).run.run bench =
      (.ok (String.ofList text, header), bench.enter .validate) := by
  unfold Stage.perform
  simp only [String.toList_ofList, plain]
  rfl

theorem run_extract {request : Request} (cleared : bench.pragmas = [] ∧ bench.parameters = []) :
    (Stage.extract.perform hook? (String.ofList request.uncommented) header).run.run bench =
      (.ok (request.plain, header),
        { bench.enter .extract with
          pragmas := request.preparation.pragmas
          parameters := request.preparation.parameters }) := by
  obtain ⟨names, directives, pragmas, parameters, entered⟩ := bench
  obtain ⟨rfl, rfl⟩ := cleared
  unfold Stage.perform
  simp only [String.toList_ofList]
  rfl

theorem run_direct {request : Request} (told : bench.directives = request.directives) :
    (Stage.direct.perform request.hook? request.plain {}).run.run bench =
      (.ok (request.directed.1, request.directed.2), bench.enter .direct) := by
  unfold Stage.perform Request.directed
  rw [← told]
  cases request.hook? <;> rfl

theorem run_define {request : Request}
    (extracted : bench.parameters = request.preparation.parameters) :
    (Stage.define.perform hook? request.directed.1 request.directed.2).run.run bench =
      (.ok (request.preparation.script, request.directed.2), bench.enter .define) := by
  unfold Preparation.script
  rw [← extracted]
  rfl

theorem run_compile {names : NameSupply} (kept : bench.names = names) (text : String) :
    (Stage.compile.perform hook? text header).run.run bench =
      (.ok ((Body.compile names text).1, header),
        { bench.enter .compile with names := (Body.compile names text).2 }) := by
  subst kept
  rfl

end Stages

section All

variable {hook? : Option Hook} {stage : Stage} {more : List Stage} {text : String} {header : Header}
  {bench later : Workbench}

theorem performAll_ok {next : String × Header}
    (done : (stage.perform hook? text header).run.run bench = (.ok next, later)) :
    (Stage.performAll hook? (stage :: more) (text, header)).run.run bench =
      (Stage.performAll hook? more next).run.run later :=
  Work.run_bind_ok done

theorem performAll_nil (next : String × Header) :
    (Stage.performAll hook? [] next).run.run bench = (.ok next, bench) := rfl

theorem performAll_error {error : TemplateError}
    (failed : (stage.perform hook? text header).run.run bench = (.error error, later)) :
    (Stage.performAll hook? (stage :: more) (text, header)).run.run bench = (.error error, later) :=
  Work.run_bind_error failed

end All

theorem run_collect (body : String) (bench : Workbench) :
    (collect body).run.run bench =
      (.ok { body, parameters := bench.parameters, pragmas := bench.pragmas },
        { bench with pragmas := [], parameters := [] }) := rfl

/-! ### Requests -/

variable {request : Request}

/-- A request that fails enters no stage after the one that refuses it. -/
theorem compile_of_nested {error : TemplateError} (nested : request.error? = some error)
    (bench : Workbench) :
    (compile request).run.run bench =
      (.error error, ((bench.cleared request).enter .uncomment).enter .validate) := by
  have failed : (Stage.performAll request.hook? Stage.all (request.source, {})).run.run
      (bench.cleared request) =
        (.error error, ((bench.cleared request).enter .uncomment).enter .validate) := by
    rw [Stage.all, performAll_ok (run_uncomment request),
      performAll_error (run_validate_of_nested nested)]
  have cleared : (modify (·.cleared request) : Work PUnit).run.run bench =
      (.ok ⟨⟩, bench.cleared request) := rfl
  rw [compile, Work.run_bind_ok cleared, Work.run_bind_error failed]

/-- The workbench after the stages of a request that fails nowhere. -/
def extracted (bench : Workbench) (request : Request) : Workbench where
  names := (request.compile bench.names).2
  directives := request.directives
  pragmas := request.preparation.pragmas
  parameters := request.preparation.parameters
  entered := bench.entered ++ Stage.all

theorem run_performAll (plain : request.error? = none) (bench : Workbench) :
    (Stage.performAll request.hook? Stage.all (request.source, {})).run.run
        (bench.cleared request) =
      (.ok ((Body.compile bench.names request.preparation.script).1, request.directed.2),
        bench.extracted request) := by
  have entered : bench.entered ++ Stage.all =
      bench.entered ++ [.uncomment] ++ [.validate] ++ [.extract] ++ [.direct] ++ [.define] ++
        [.compile] := by
    simp [Stage.all]
  rw [extracted, entered, Request.compile_of_plain plain, Stage.all,
    performAll_ok (run_uncomment request), performAll_ok (run_validate_of_plain plain),
    performAll_ok (run_extract ⟨rfl, rfl⟩), performAll_ok (run_direct rfl),
    performAll_ok (run_define rfl), performAll_ok (run_compile rfl _), performAll_nil]
  simp only [enter, cleared]

/-- A request that fails nowhere has the result that it has by itself. -/
theorem compile_of_plain (plain : request.error? = none) (bench : Workbench) :
    (compile request).run.run bench =
      ((request.compile bench.names).1,
        { bench.extracted request with pragmas := [], parameters := [] }) := by
  have cleared : (modify (·.cleared request) : Work PUnit).run.run bench =
      (.ok ⟨⟩, bench.cleared request) := rfl
  rw [compile, Work.run_bind_ok cleared, Work.run_bind_ok (run_performAll plain bench),
    run_collect, Request.compile_of_plain plain]
  rfl

end Workbench

end ScriptedMarkup
