import ScriptedMarkup.Proofs.Body.Hoisting
import ScriptedMarkup.Session

/-!
# Names of a session

The bound captures that the requests of a session complete are numbered throughout. A request that
fails has no draft and takes no number.
-/

namespace ScriptedMarkup

namespace Request

/-- The draft of a template that compiles. -/
def drafted? (request : Request) (names : NameSupply) : Option Draft :=
  match request.prepare with
  | .error _ => none
  | .ok prepared => some (Body.draft names prepared.script)

/-- The bindings of the bound captures that a template completes. -/
def completed (request : Request) (names : NameSupply) : List Binding :=
  match request.prepare with
  | .error _ => []
  | .ok prepared => (Body.start names).completed (Signal.ofSource prepared.script)

theorem compile_of_error {request : Request} {error : TemplateError}
    (failed : request.prepare = .error error) (names : NameSupply) :
    request.compile names = (.error error, names) := by
  rw [compile, failed]

theorem compile_of_ok {request : Request} {prepared : Preparation}
    (ready : request.prepare = .ok prepared) (names : NameSupply) :
    request.compile names =
      (.ok
        { body := (Body.draft names prepared.script).render
          parameters := prepared.parameters
          pragmas := prepared.pragmas },
        (Body.scan names prepared.script).names) := by
  rw [compile, ready]
  rfl

end Request

/-- What the helpers of drafts declare. -/
def declarations (drafts : List Draft) : List (Binding × String) :=
  drafts.flatMap fun draft => draft.helpers.map Helper.declared

/-- What the pieces of drafts refer to. -/
def referrals (drafts : List Draft) : List (Binding × String) :=
  drafts.flatMap fun draft => draft.pieces.filterMap Piece.reference?

theorem Request.declared_drafted (request : Request) (names : NameSupply) :
    (request.compile names).2.issued = names.issued + (request.completed names).length ∧
      declarations (request.drafted? names).toList =
        numbered names.issued (request.completed names) ∧
      referrals (request.drafted? names).toList =
        numbered names.issued (request.completed names) ∧
      (request.compile names).1.toOption.map (·.body) =
        (request.drafted? names).map Draft.render := by
  cases ready : request.prepare with
  | error error =>
    rw [compile_of_error ready]
    simp [drafted?, completed, ready, declarations, referrals, numbered, Except.toOption]
  | ok prepared =>
    obtain ⟨issued, declared, referred⟩ := Body.declared_draft names prepared.script
    have drafted : request.drafted? names = some (Body.draft names prepared.script) := by
      rw [drafted?, ready]
    have bindings : request.completed names =
        (Body.start names).completed (Signal.ofSource prepared.script) := by
      rw [completed, ready]
    rw [compile_of_ok ready, drafted, bindings]
    dsimp only
    refine ⟨issued, ?_, ?_, ?_⟩
    · rw [← declared]
      simp [declarations]
    · rw [← referred]
      simp [referrals]
    · simp only [Except.toOption, Option.map_some]

namespace Session

def after (session : Session) (requests : List Request) : Session :=
  requests.foldl (fun session request => (session.answer request).2) session

/-- The drafts of the requests that succeed. -/
def drafts (session : Session) : List Request → List Draft
  | [] => []
  | request :: more =>
    (request.drafted? session.names).toList ++ (session.answer request).2.drafts more

/-- The bindings of the bound captures that requests complete. -/
def completed (session : Session) : List Request → List Binding
  | [] => []
  | request :: more =>
    request.completed session.names ++ (session.answer request).2.completed more

theorem declared_drafts (session : Session) (requests : List Request) :
    (session.after requests).issued = session.issued + (session.completed requests).length ∧
      declarations (session.drafts requests) =
        numbered session.issued (session.completed requests) ∧
      referrals (session.drafts requests) =
        numbered session.issued (session.completed requests) := by
  induction requests generalizing session with
  | nil => exact ⟨rfl, rfl, rfl⟩
  | cons request more ih =>
    obtain ⟨issued, declared, referred, -⟩ := request.declared_drafted session.names
    obtain ⟨moreIssued, moreDeclared, moreReferred⟩ := ih (session.answer request).2
    have next : (session.answer request).2.issued =
        session.issued + (request.completed session.names).length := issued
    rw [next] at moreIssued moreDeclared moreReferred
    refine ⟨?_, ?_, ?_⟩
    · rw [completed, List.length_append, ← Nat.add_assoc]
      exact moreIssued
    · rw [completed, numbered_append, ← moreDeclared]
      rw [show numbered session.issued _ = _ from declared.symm]
      simp [declarations, drafts]
    · rw [completed, numbered_append, ← moreReferred]
      rw [show numbered session.issued _ = _ from referred.symm]
      simp [referrals, drafts]

theorem bodies_answers (session : Session) (requests : List Request) :
    (session.answers requests).filterMap (fun answer => answer.result.toOption.map (·.body)) =
      (session.drafts requests).map Draft.render := by
  induction requests generalizing session with
  | nil => rfl
  | cons request more ih =>
    obtain ⟨-, -, -, body⟩ := request.declared_drafted session.names
    rw [answers, drafts, List.map_append, ← ih]
    have result : (session.answer request).1.result = (request.compile session.names).1 := rfl
    cases drafted : request.drafted? session.names with
    | none =>
      rw [drafted] at body
      rw [List.filterMap_cons_none (by rw [result]; exact body)]
      rfl
    | some draft =>
      rw [drafted] at body
      rw [List.filterMap_cons_some (by rw [result]; exact body)]
      rfl

theorem issued_answers (session : Session) (earlier later : List Request) (request : Request) :
    (session.answers (earlier ++ request :: later))[earlier.length]?.map Answer.issued =
      some (session.after (earlier ++ [request])).issued := by
  induction earlier generalizing session with
  | nil => rfl
  | cons first earlier ih => exact ih (session.answer first).2

end Session

namespace SharedSession

variable {handles : Nat}

def after (shared : SharedSession handles) (calls : List (Fin handles × Request)) :
    SharedSession handles :=
  calls.foldl (fun shared call => (shared.answer call.1 call.2).2) shared

def answers (shared : SharedSession handles) : List (Fin handles × Request) → List Answer
  | [] => []
  | call :: more =>
    (shared.answer call.1 call.2).1 :: (shared.answer call.1 call.2).2.answers more

theorem answers_eq (shared : SharedSession handles) (calls : List (Fin handles × Request)) :
    shared.answers calls = shared.session.answers (calls.map (·.2)) ∧
      (shared.after calls).session = shared.session.after (calls.map (·.2)) := by
  induction calls generalizing shared with
  | nil => exact ⟨rfl, rfl⟩
  | cons call more ih =>
    obtain ⟨answers, session⟩ := ih (shared.answer call.1 call.2).2
    exact ⟨congrArg _ answers, session⟩

end SharedSession

def helperCount (drafts : List Draft) : Nat := (drafts.flatMap Draft.helpers).length

theorem length_declarations (drafts : List Draft) :
    (declarations drafts).length = helperCount drafts := by
  simp [declarations, helperCount, List.length_flatMap]

theorem Session.issued_after (requests : List Request) :
    (after {} requests).issued = helperCount (drafts {} requests) := by
  obtain ⟨issued, declared, -⟩ := declared_drafts {} requests
  rw [issued, ← length_declarations, declared, length_numbered]
  exact Nat.zero_add _

/-- Over a whole session the bound captures that are completed get the names `$edb1`, `$edb2` and so
on, in order. Each is declared by one helper and referred to by one piece, and the number given out
is always that of the helpers so far. All this holds through any handles of a shared session too. -/
theorem Session.names_given (requests : List Request) :
    let drafts := drafts {} requests
    let bindings := completed {} requests
    declarations drafts = numbered 0 bindings ∧
      referrals drafts = numbered 0 bindings ∧
      (∀ k : Nat, (numbered 0 bindings)[k]? =
        bindings[k]?.map fun binding => (binding, "$edb" ++ Nat.repr (k + 1))) ∧
      ((numbered 0 bindings).map (·.2)).Nodup ∧
      (answers {} requests).filterMap (fun answer => answer.result.toOption.map (·.body)) =
        drafts.map Draft.render ∧
      (∀ earlier request later, requests = earlier ++ request :: later →
        (answers {} requests)[earlier.length]?.map Answer.issued =
          some (helperCount (Session.drafts {} (earlier ++ [request])))) ∧
      ∀ handles (calls : List (Fin handles × Request)), calls.map (·.2) = requests →
        SharedSession.answers {} calls = answers {} requests ∧
          ∀ handle, (SharedSession.after {} calls).issued handle = helperCount drafts := by
  intro drafts bindings
  obtain ⟨-, declared, referred⟩ := declared_drafts {} requests
  refine ⟨declared, referred, ?_, nodup_names_numbered _ _, bodies_answers _ _, ?_, ?_⟩
  · intro k
    simp only [numbered, List.getElem?_map, List.getElem?_zipIdx, Option.map_map]
    rw [Nat.add_comm k 1]
    rfl
  · rintro earlier request later rfl
    rw [issued_answers, issued_after]
  · rintro handles calls rfl
    obtain ⟨answers, session⟩ := SharedSession.answers_eq ({} : SharedSession handles) calls
    refine ⟨answers, ?_⟩
    intro handle
    rw [← issued_after, SharedSession.issued, session]

end ScriptedMarkup
