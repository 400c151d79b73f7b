import ScriptedMarkup.Proofs.Body.Headed
import ScriptedMarkup.Proofs.Request.Basic
import ScriptedMarkup.Proofs.Request.Header

/-!
# Headers and results

A template that holds no other compiles to the prologue, its header, and what its directed text
alone comes to after the prologue (`Request.compile_eq`).
-/

namespace ScriptedMarkup

namespace Request

/-- A template that holds no other compiles to the prologue, the header that its parameters and its
hook make, and what its directed text alone comes to after the prologue. It takes the names that
this text takes. The header is one line of declarations and then the definitions, and opens no
literal. -/
theorem compile_eq {request : Request} {edits : List Header.Edit} (names : NameSupply)
    (plain : TemplateError.ofText? request.uncommented = none)
    (made : request.directed.2 = .edited edits) :
    let parameters := (Pragma.found request.uncommented).filterMap fun placed =>
      if placed.pragma.tag = "param" then placed.pragma.value? "name" else none
    let declared := (edits.filterMap Header.Edit.declared?).eraseDups
    let definitions := edits.filterMap Header.Edit.definition?
    let header :=
      "var " ++ (if "out" ∈ parameters then "" else "out = $function.$out, ") ++
        "att = new edb.Att () " ++ String.join (declared.map (", " ++ ·)) ++ ";\n" ++
        String.join (definitions.map (· ++ "\n"))
    (∀ line ∈ Text.lines header.toList, line.head? ≠ some '<') →
      ∃ rest,
        (Body.compile names request.directed.1).1 = "'use strict';\n" ++ rest ∧
        request.compile names =
          (.ok
            { body := "'use strict';\n" ++ String.ofList (Text.dropReturns header.toList) ++ rest
              parameters
              pragmas := Pragma.found request.uncommented },
            (Body.compile names request.directed.1).2) := by
  intro parameters declared definitions header statements
  have rendered : request.preparation.header.render request.preparation.parameters = header := by
    show request.directed.2.render parameters = header
    unfold Header.render
    rw [made, Header.declared_edited, Header.definitions_edited]
    have attributes (front : String) :
        front ++ attributeName ++ " = new edb.Att () " = front ++ "att = new edb.Att () " :=
      String.append_assoc
    rw [attributes]
    rfl
  have script : request.preparation.script = header ++ request.directed.1 := by
    rw [Preparation.script, rendered]
    rfl
  obtain ⟨front, ended⟩ := request.preparation.header.exists_toList_render request.preparation.parameters
  rw [rendered] at ended
  obtain ⟨rest, alone, whole⟩ := Body.compile_append names ended statements request.directed.1
  refine ⟨rest, alone, ?_⟩
  rw [compile_of_plain plain, script, whole]
  rfl

theorem compile_eq_hooked :
    let hook : Hook := fun text _ header =>
      (text ++ "<b>", (header.declare "x").define "x = 1;\r\ny = 2;")
    let request : Request := { source := "<?param name='out'?>\n<p>?{a}</p>\n", hook? := some hook }
    TemplateError.ofText? request.uncommented = none ∧
      request.directed.2 = .edited [.declare "x", .define "x = 1;\r\ny = 2;"] ∧
      ∃ rest, (Body.compile {} request.directed.1).1 = "'use strict';\n" ++ rest ∧
        (request.compile {}).1.toOption.map (fun compiled => (compiled.body, compiled.parameters)) =
          some ("'use strict';\nvar att = new edb.Att () , x;\nx = 1;\ny = 2;\n" ++ rest, ["out"]) ∧
        (request.compile {}).2.issued = 1 := by
  intro hook request
  have plain : TemplateError.ofText? request.uncommented = none := by decide
  have made : request.directed.2 = .edited [.declare "x", .define "x = 1;\r\ny = 2;"] := rfl
  obtain ⟨rest, alone, whole⟩ := compile_eq {} plain made (by decide +kernel)
  refine ⟨plain, made, rest, alone, ?_, by decide +kernel⟩
  have parameters : request.preparation.parameters = ["out"] := by decide +kernel
  rw [whole]
  refine congrArg some (Prod.ext (congrArg (· ++ rest) ?_) parameters)
  decide +kernel

end Request

end ScriptedMarkup
