import BuildHooks.Event.Path
import BuildHooks.Event.Registry

/-!
Dispatch of one request: the path gives the event, the body the payload, the event's factory checks it
and its handler does the work. The first step that fails decides the response. Nothing of an event runs
before the payload is read, and its handler does not run before the payload is accepted.
-/

namespace BuildHooks

namespace Dispatch

inductive Status where
  | ok
  | badRequest
  | internalError
deriving DecidableEq, Repr

def Status.code : Status → Nat
  | .ok => 200
  | .badRequest => 400
  | .internalError => 500

/-- The class of the status, as it is measured. -/
def Status.outcome : Status → String
  | .ok => "ok"
  | .badRequest => "client_error"
  | .internalError => "server_error"

/-- Results are JSON and everything else is plain text. -/
def Status.contentType : Status → String
  | .ok => "application/json; charset=utf-8"
  | _ => "text/plain; charset=utf-8"

structure Response where
  status : Status
  body : String
  /-- The name of the event as it was registered, once the path led to one. -/
  event : Option String
deriving DecidableEq, Repr

inductive Problem where
  /-- The path names no event that is registered. -/
  | noEvent
  | malformed (what : Payload.Malformed)
  | rejected (why : Payload.Rejection)
  | failed (event : String) (failure : Failure)

def Problem.status : Problem → Status
  | .failed _ _ => .internalError
  | _ => .badRequest

def Problem.message : Problem → String
  | .noEvent => "Invalid event"
  | .malformed what => what.message
  | .rejected why => why.message
  | .failed event failure =>
    s!"Error while performing reaction to '{event}' event: {failure.line}"

def Problem.record (path : String) (event : Option String) : Problem → Log.Record
  | .failed name failure =>
    { level := .error
      source := .dispatch
      message := "error while performing reaction to event"
      fields := [("event", .plain name), ("error", .plain failure.line)] }
  | problem =>
    { level := .warn
      source := .dispatch
      message := "rejected event request"
      fields := [("path", .plain path), ("event", .quoted (event.getD "")),
                 ("error", .plain problem.message)] }

def Problem.refuse (path : String) (event : Option String) (problem : Problem) : Task Response := do
  Task.write (problem.record path event)
  return { status := problem.status, body := problem.message, event := event }

end Dispatch

/-- The events of a registry, served under a root. -/
structure Dispatcher where
  registry : Event.Registry
  root : String

namespace Dispatcher

/-- The entry that a path leads to. -/
def resolve? (d : Dispatcher) (path : String) : Option Event.Entry :=
  match Event.nameInPath? (Event.pathLead d.root) path with
  | some name => if Text.isAllBlank name then none else d.registry.lookup? name
  | none => none

/-- Dispatches a body to an entry. -/
def perform (path body : String) (entry : Event.Entry) : Task Dispatch.Response :=
  match Payload.parse body with
  | .error what => Dispatch.Problem.refuse path entry.name (.malformed what)
  | .ok payload => do
    match ← entry.factory.create payload with
    | .error why => Dispatch.Problem.refuse path entry.name (.rejected why)
    | .ok handler =>
      match ← handler payload with
      | .error failure => Dispatch.Problem.refuse path entry.name (.failed entry.name failure)
      | .ok result => return { status := .ok, body := result.text, event := entry.name }

def dispatch (d : Dispatcher) (path body : String) : Task Dispatch.Response :=
  match d.resolve? path with
  | none => Dispatch.Problem.refuse path none .noEvent
  | some entry => perform path body entry

end Dispatcher

end BuildHooks
