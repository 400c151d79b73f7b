import ScriptedMarkup.Request.Basic

/-!
# Sessions

A `Session` answers one request after another. All that it keeps between two of them is its
supply of names, so that no two of its templates share a generated name. A `SharedSession` is one
session that several callers hold a handle of.
-/

namespace ScriptedMarkup

/-- A compiler that answers one request after another. -/
structure Session where
  names : NameSupply := {}
  deriving DecidableEq, Repr

structure Answer where
  result : Except TemplateError CompiledFunction
  /-- How many names the session has given out by then. -/
  issued : Nat

namespace Session

def issued (session : Session) : Nat := session.names.issued

def answer (session : Session) (request : Request) : Answer × Session :=
  let (result, names) := request.compile session.names
  ({ result, issued := names.issued }, { names })

def answers (session : Session) : List Request → List Answer
  | [] => []
  | request :: more => (session.answer request).1 :: (session.answer request).2.answers more

end Session

/-- A session that callers reach through a number of handles. -/
structure SharedSession (handles : Nat) where
  session : Session := {}
  deriving DecidableEq, Repr

namespace SharedSession

/-- Answers a request through a handle. Every handle reaches the same supply of names. -/
def answer {handles : Nat} (shared : SharedSession handles) (_ : Fin handles)
    (request : Request) : Answer × SharedSession handles :=
  let (answer, session) := shared.session.answer request
  (answer, { session })

def issued {handles : Nat} (shared : SharedSession handles) (_ : Fin handles) : Nat :=
  shared.session.issued

end SharedSession

end ScriptedMarkup
