import ScriptedMarkup.Proofs.Session.Names
import ScriptedMarkup.Proofs.Session.Stages

/-!
# Failures in a session

A request that fails overwrites the directives of a workbench and what was extracted, and enters two
stages. It leaves the names alone, and the names are all that the next request takes from the
workbench (`Workbench.answers_congr`), so that a session without its failures answers the rest as it
did (`Workbench.answers_kept`).
-/

namespace ScriptedMarkup

namespace Workbench

variable {request : Request}

def answer (bench : Workbench) (request : Request) : Answer × Workbench :=
  let (result, later) := (compile request).run.run bench
  ({ result, issued := later.names.issued }, later)

def answers (bench : Workbench) : List Request → List Answer
  | [] => []
  | request :: more => (bench.answer request).1 :: (bench.answer request).2.answers more

def after (bench : Workbench) : List Request → Workbench
  | [] => bench
  | request :: more => (bench.answer request).2.after more

/-- The session that has given out the same names. -/
def session (bench : Workbench) : Session := { names := bench.names }

theorem answer_of_nested {error : TemplateError} (nested : request.error? = some error)
    (bench : Workbench) :
    bench.answer request =
      ({ result := .error error, issued := bench.names.issued },
        ((bench.cleared request).enter .uncomment).enter .validate) := by
  rw [answer, compile_of_nested nested]
  rfl

theorem answer_of_plain (plain : request.error? = none) (bench : Workbench) :
    bench.answer request =
      ({ result := (request.compile bench.names).1
         issued := (request.compile bench.names).2.issued },
        { bench.extracted request with pragmas := [], parameters := [] }) := by
  rw [answer, compile_of_plain plain]
  rfl

/-- What is left on a workbench has no part in an answer. -/
theorem answer_eq (bench : Workbench) (request : Request) :
    (bench.answer request).1 = (bench.session.answer request).1 ∧
      (bench.answer request).2.session = (bench.session.answer request).2 := by
  cases outcome : request.error? with
  | some error =>
    rw [answer_of_nested outcome, Session.answer, Request.compile_of_nested outcome]
    exact ⟨rfl, rfl⟩
  | none =>
    rw [answer_of_plain outcome]
    exact ⟨rfl, rfl⟩

theorem answers_eq (bench : Workbench) (requests : List Request) :
    bench.answers requests = bench.session.answers requests ∧
      (bench.after requests).session = bench.session.after requests := by
  induction requests generalizing bench with
  | nil => exact ⟨rfl, rfl⟩
  | cons request more ih =>
    obtain ⟨answer, session⟩ := bench.answer_eq request
    obtain ⟨answers, after⟩ := ih (bench.answer request).2
    rw [session] at answers after
    refine ⟨?_, ?_⟩
    · rw [Workbench.answers, Session.answers, answer, answers]
    · rw [Workbench.after, after]
      rfl

theorem answers_congr {bench other : Workbench} (same : bench.names = other.names)
    (requests : List Request) : bench.answers requests = other.answers requests := by
  rw [(answers_eq bench requests).1, (answers_eq other requests).1, session, session, same]

theorem isOk_iff (bench : Workbench) (request : Request) :
    (bench.answer request).1.result.isOk = true ↔ request.error? = none := by
  cases outcome : request.error? with
  | some error => simp [answer_of_nested outcome, Except.isOk, Except.toBool]
  | none => simp [answer_of_plain outcome, Request.compile_of_plain outcome, Except.isOk, Except.toBool]

theorem error_iff (bench : Workbench) (request : Request) (error : TemplateError) :
    (bench.answer request).1.result = .error error ↔ request.error? = some error := by
  cases outcome : request.error? with
  | some other => simp [answer_of_nested outcome]
  | none => simp [answer_of_plain outcome, Request.compile_of_plain outcome]

theorem entered_of_ok {bench : Workbench} (succeeded : (bench.answer request).1.result.isOk = true) :
    (bench.answer request).2.entered = bench.entered ++ Stage.all := by
  rw [answer_of_plain ((bench.isOk_iff request).1 succeeded), extracted]

theorem of_failed {bench : Workbench} (failed : (bench.answer request).1.result.isOk = false) :
    (bench.answer request).1.issued = bench.names.issued ∧
      (bench.answer request).2.names = bench.names ∧
      (bench.answer request).2.entered = bench.entered ++ [.uncomment, .validate] := by
  cases outcome : request.error? with
  | some error =>
    rw [answer_of_nested outcome]
    exact ⟨rfl, rfl, List.append_assoc _ _ _⟩
  | none => exact absurd ((bench.isOk_iff request).2 outcome) (by simp [failed])

/-- The calls that succeed, with their answers. -/
def kept {Call : Type} (calls : List Call) (answers : List Answer) : List (Call × Answer) :=
  (calls.zip answers).filter (·.2.result.isOk)

section Kept

variable {Call : Type} {call : Call} {calls : List Call} {answer : Answer} {answers : List Answer}

theorem kept_cons_of_pos (succeeded : answer.result.isOk = true) :
    kept (call :: calls) (answer :: answers) = (call, answer) :: kept calls answers :=
  List.filter_cons_of_pos succeeded

theorem kept_cons_of_neg (failed : answer.result.isOk = false) :
    kept (call :: calls) (answer :: answers) = kept calls answers :=
  List.filter_cons_of_neg (by simp [failed])

theorem kept_map {Other : Type} (f : Call → Other) (calls : List Call) (answers : List Answer) :
    kept (calls.map f) answers = (kept calls answers).map (Prod.map f id) := by
  rw [kept, List.zip_map_left, List.filter_map]
  rfl

end Kept

theorem answers_kept (bench : Workbench) (requests : List Request) :
    bench.answers ((kept requests (bench.answers requests)).map (·.1)) =
      (kept requests (bench.answers requests)).map (·.2) := by
  induction requests generalizing bench with
  | nil => rfl
  | cons request more ih =>
    have rest := ih (bench.answer request).2
    rw [answers]
    cases succeeded : (bench.answer request).1.result.isOk with
    | true => rw [kept_cons_of_pos succeeded, List.map_cons, List.map_cons, answers, rest]
    | false =>
      rw [kept_cons_of_neg succeeded, ← rest]
      exact answers_congr (of_failed succeeded).2.1.symm _

theorem getElem?_answers (bench : Workbench) (earlier later : List Request) (request : Request) :
    (bench.answers (earlier ++ request :: later))[earlier.length]? =
      some ((bench.after earlier).answer request).1 := by
  induction earlier generalizing bench with
  | nil => rfl
  | cons first earlier ih =>
    rw [List.cons_append, answers, List.length_cons, List.getElem?_cons_succ, ih, after]

/-- A request fails just when a template is nested in its text, whatever came before. One that fails
takes no name and enters no stage after the one that refuses it. A session without the requests that
fail answers the others as it did. All this holds for a session and through any handles of a shared
one too, as these answer like a workbench. -/
theorem failures_invisible (bench : Workbench) (requests : List Request) :
    (∀ earlier request later, requests = earlier ++ request :: later →
      let before := bench.after earlier
      let answer := (before.answer request).1
      let after := (before.answer request).2
      (bench.answers requests)[earlier.length]? = some answer ∧
        (∀ error, answer.result = .error error ↔
          TemplateError.ofText? request.uncommented = some error) ∧
        (answer.result.isOk = true → after.entered = before.entered ++ Stage.all) ∧
        (answer.result.isOk = false →
          answer.issued = before.names.issued ∧ after.names = before.names ∧
            after.entered = before.entered ++ [.uncomment, .validate])) ∧
      (let kept := kept requests (bench.answers requests)
       bench.answers (kept.map (·.1)) = kept.map (·.2)) ∧
      bench.answers requests = bench.session.answers requests ∧
      ∀ handles (shared : SharedSession handles) (calls : List (Fin handles × Request)),
        shared.session = bench.session → calls.map (·.2) = requests →
          let kept := kept calls (shared.answers calls)
          shared.answers calls = bench.answers requests ∧
            (∀ handle, (shared.after calls).issued handle = (bench.after requests).names.issued) ∧
            shared.answers (kept.map (·.1)) = kept.map (·.2) := by
  refine ⟨?_, bench.answers_kept requests, (bench.answers_eq requests).1, ?_⟩
  · rintro earlier request later rfl before answer after
    exact ⟨bench.getElem?_answers earlier later request, before.error_iff request, entered_of_ok,
      of_failed⟩
  · rintro handles shared calls same rfl kept
    obtain ⟨answers, session⟩ := shared.answers_eq calls
    obtain ⟨own, after⟩ := bench.answers_eq (calls.map (·.2))
    rw [same, ← own] at answers
    refine ⟨answers, ?_, ?_⟩
    · intro handle
      rw [SharedSession.issued, session, same, ← after]
      rfl
    · have requests : (kept.map (·.1)).map (·.2) =
          (Workbench.kept (calls.map (·.2)) (bench.answers (calls.map (·.2)))).map (·.1) := by
        rw [kept_map, ← answers, List.map_map, List.map_map]
        rfl
      have results : kept.map (·.2) =
          (Workbench.kept (calls.map (·.2)) (bench.answers (calls.map (·.2)))).map (·.2) := by
        rw [kept_map, ← answers, List.map_map]
        rfl
      rw [(shared.answers_eq _).1, requests, results, same, ← (bench.answers_eq _).1]
      exact bench.answers_kept _

end Workbench

end ScriptedMarkup
