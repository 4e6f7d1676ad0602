import BuildHooks.Host.Server

/-!
The steps of a server: everything that can happen to it between two moments at which all its requests
wait. Requests come in, go on, end or are dropped, the scheduler is given permits, and the host is
declared ready, told to shut down and asked whether anything is in flight. A step takes the server to
its next state and says what was seen of it from outside.
-/

namespace BuildHooks.Host

inductive Step where
  /-- A request comes in and is handled to its end. -/
  | handle (fresh : String) (uptime : Nat) (request : Http.Request)
  /-- A request comes in and goes on until it has to wait. -/
  | start (fresh : String) (uptime : Nat) (request : Http.Request)
  /-- A pending request goes on until it has to wait again. -/
  | resume (id : Nat)
  /-- A pending request goes on to its end or to the end of its time. -/
  | finish (id : Nat)
  /-- The caller of a pending request is gone. -/
  | abandon (id : Nat)
  | permit
  | setReady
  | trigger
  | drain

/-- What is seen of a step. -/
inductive Seen where
  | nothing
  /-- A request that came in was answered. -/
  | answered (response : Http.Response)
  /-- A request that came in is pending. -/
  | opened (id : Nat)
  /-- A pending request was answered. -/
  | closed (id : Nat) (response : Http.Response)
  /-- A pending request was dropped. -/
  | dropped (id : Nat)
  /-- Whether nothing was in flight. -/
  | drained (empty : Bool)
deriving DecidableEq, Repr

namespace Server

/-- The name of the next request. No other that is or was pending has it. -/
def nextId (s : Server) : Nat :=
  s.life.issued

/-- A server whose life goes on in some way. -/
def withLife (s : Server) (change : Lifecycle → Lifecycle) : Server :=
  { s with life := change s.life }

def step (s : Server) : Step → Server × Seen × Trace
  | .handle fresh uptime request =>
    let (s, response, t) := s.handle s.nextId fresh uptime request
    (s, .answered response, t)
  | .start fresh uptime request =>
    match s.start s.nextId fresh uptime request with
    | (s', .answered response, t) => (s', .answered response, t)
    | (s', .pending, t) => (s', .opened s.nextId, t)
  | .resume id =>
    match s.resume id with
    | (s, some (.answered response), t) => (s, .closed id response, t)
    | (s, _, t) => (s, .nothing, t)
  | .finish id =>
    match s.finish id with
    | (s, some response, t) => (s, .closed id response, t)
    | (s, none, t) => (s, .nothing, t)
  | .abandon id =>
    match s.abandon id with
    | (s, true) => (s, .dropped id, .empty)
    | (s, false) => (s, .nothing, .empty)
  | .permit => (s.permit, .nothing, .empty)
  | .setReady => (s.withLife Lifecycle.setReady, .nothing, .empty)
  | .trigger => (s.withLife Lifecycle.trigger, .nothing, .empty)
  | .drain => (s.withLife fun l => l.drain.2, .drained s.life.drain.1, .empty)

end Server

/-- A request that was seen to be pending. -/
structure Open where
  id : Nat
  request : Http.Request
  /-- The identifier for its answer if the caller gave none. -/
  fresh : String
deriving DecidableEq, Repr

/-- The requests that are pending after a step, by what was seen of it alone. -/
def Step.openAfter (opened : List Open) : Step → Seen → List Open
  | .start fresh _ request, .opened id => opened ++ [⟨id, request, fresh⟩]
  | _, .closed id _ => opened.filter fun o => o.id != id
  | _, .dropped id => opened.filter fun o => o.id != id
  | _, _ => opened

/-- The server after some steps, and the requests that were seen to be pending then. -/
def Server.course : Server × List Open → List Step → Server × List Open
  | state, [] => state
  | (s, opened), step :: steps =>
    let (s', seen, _) := s.step step
    course (s', step.openAfter opened seen) steps

end BuildHooks.Host
