import BuildHooks.Host.Site

/-!
A server: a site with the state of its life and the requests that wait for the scheduler. A request is
started, and is either answered at once or left pending; a pending request is resumed when the
scheduler replied, finished, which answers it or gives it up when its time is over, or abandoned by its
caller. It holds a guard from when it was accepted until then.

Pending requests wait for permits in the order in which they asked. As many of them are granted as there
are permits; a granted request uses its permit up when it is finished.
-/

namespace BuildHooks.Host

/-- A request that waits for the scheduler's reply. -/
structure Pending where
  id : Nat
  request : Http.Request
  /-- The identifier for its answer if the caller gave none. -/
  fresh : String
  guardNumber : Nat
  call : Call
  next : Reply → Task Dispatch.Response

structure Server where
  site : Site
  life : Lifecycle
  /-- The permits that are there to be used. -/
  permits : Nat
  /-- The pending requests in the order in which they asked the scheduler. -/
  waiting : List Pending

/-- What became of a request that was started. -/
inductive Started where
  | answered (response : Http.Response)
  | pending

namespace Server

def ofSite (site : Site) : Server :=
  ⟨site, .fresh, 0, []⟩

/-- Whether a request that comes after `before` others in the queue has its reply. -/
def granted (s : Server) (before : Nat) : Bool :=
  match s.site.scheduler.readiness with
  | .atOnce => true
  | .never => false
  | .onPermit => before < s.permits

/-- One permit less, if permits are what the scheduler waits for. -/
def usePermit (s : Server) : Server :=
  match s.site.scheduler.readiness with
  | .onPermit => { s with permits := s.permits - 1 }
  | _ => s

/-- How a task ends that the scheduler replies to as long as it may. Every reply uses a permit; the task
stops where it would have to wait behind `before` others. -/
def drive (before : Nat) : Server → Task Dispatch.Response →
    Server × Task.Stop Dispatch.Response × Trace
  | s, .done r => (s, .finished r, .empty)
  | s, .note r next =>
    let (s, stop, t) := drive before s next
    (s, stop, { t with records := r :: t.records })
  | s, .measure m next =>
    let (s, stop, t) := drive before s next
    (s, stop, { t with metrics := m :: t.metrics })
  | s, .ask call next =>
    if s.granted before then
      let (records, reply) := s.site.scheduler.answer call
      let (s, stop, t) := drive before s.usePermit (next reply)
      (s, stop, { t with records := records ++ t.records, calls := call :: t.calls })
    else (s, .waiting call next, .ofCall call)

/-- Takes back the guard of a request. -/
def release (s : Server) (guardNumber : Nat) : Server :=
  { s with life := (s.life.release guardNumber).2 }

/-- Starts to dispatch a request that was accepted. -/
def startDispatch (s : Server) (id : Nat) (fresh : String) (request : Http.Request) :
    Server × Started × Trace :=
  let (guardNumber, life) := s.life.acquire
  let s := { s with life }
  let body := String.ofList (Text.Utf8.decodeLenient request.body)
  let task := s.site.dispatcher.measured (Text.Percent.decodePath request.path) body
  match s.drive s.waiting.length task with
  | (s, .finished r, t) =>
    (s.release guardNumber, .answered (s.site.identified request fresh (Site.dispatched r)), t)
  | (s, .waiting call next, t) =>
    let pending : Pending := { id, request, fresh, guardNumber, call, next }
    ({ s with waiting := s.waiting ++ [pending] }, .pending, t)

def startEvent (s : Server) (id : Nat) (fresh : String) (request : Http.Request) :
    Server × Started × Trace :=
  if Site.maxBody < request.body.length then
    (s, .answered (s.site.identified request fresh Site.tooLong), .empty)
  else if !s.life.health.acceptsEvents then
    (s, .answered (s.site.identified request fresh Site.shuttingDown), .empty)
  else s.startDispatch id fresh request

/-- Starts a request. `id` names it while it is pending, `fresh` is its identifier if the caller gave
none, and `uptime` is the age of the server in seconds. -/
def start (s : Server) (id : Nat) (fresh : String) (uptime : Nat) (request : Http.Request) :
    Server × Started × Trace :=
  if request.method = "OPTIONS" then (s, .answered (s.site.preflight request), .empty)
  else
    match s.site.routes.find? request.path with
    | none => (s, .answered (s.site.nowhere request fresh), .empty)
    | some route =>
      if !route.methods.contains request.method then
        (s, .answered (s.site.wrongMethod request fresh route), .empty)
      else if request.method = "POST" then s.startEvent id fresh request
      else
        (s, .answered (s.site.identified request fresh (s.site.look s.life uptime route)), .empty)

/-- The pending request called `id` and how many wait before it. -/
def pending? (s : Server) (id : Nat) : Option (Nat × Pending) :=
  match s.waiting.findIdx? fun p => p.id == id with
  | some i => s.waiting[i]?.map fun p => (i, p)
  | none => none

def leave (s : Server) (id : Nat) : Server :=
  { s with waiting := s.waiting.filter fun p => p.id != id }

/-- Goes on with a pending request as far as the scheduler replies: it is answered, or it waits behind
the others once it asks again. Where there is no reply for it yet nothing changes. -/
def resume (s : Server) (id : Nat) : Server × Option Started × Trace :=
  match s.pending? id with
  | none => (s, none, .empty)
  | some (before, p) =>
    if s.granted before then
      let (records, reply) := s.site.scheduler.answer p.call
      let s := (s.leave id).usePermit
      match s.drive s.waiting.length (p.next reply) with
      | (s, .finished r, t) =>
        (s.release p.guardNumber,
         some (.answered (s.site.identified p.request p.fresh (Site.dispatched r))),
         { t with records := records ++ t.records })
      | (s, .waiting call next, t) =>
        ({ s with waiting := s.waiting ++ [{ p with call, next }] }, some .pending,
         { t with records := records ++ t.records })
    else (s, some .pending, .empty)

/-- Takes a pending request out of the server, whatever it waits for. -/
def giveUp (s : Server) (p : Pending) : Server :=
  (s.leave p.id).release p.guardNumber

/-- Finishes a pending request: it is answered if the scheduler replies, and given up otherwise. -/
def finish (s : Server) (id : Nat) : Server × Option Http.Response × Trace :=
  match s.pending? id with
  | none => (s, none, .empty)
  | some (_, p) =>
    match s.resume id with
    | (s, some (.answered response), t) => (s, some response, t)
    | (s, _, t) => (s.giveUp p, some (s.site.timedOut p.request), t)

/-- Drops a pending request, and says whether there was one. -/
def abandon (s : Server) (id : Nat) : Server × Bool :=
  match s.pending? id with
  | none => (s, false)
  | some (_, p) => (s.giveUp p, true)

def handle (s : Server) (id : Nat) (fresh : String) (uptime : Nat) (request : Http.Request) :
    Server × Http.Response × Trace :=
  match s.start id fresh uptime request with
  | (s, .answered response, t) => (s, response, t)
  | (s, .pending, t) =>
    match s.finish id with
    | (s, some response, u) => (s, response, t ++ u)
    | (s, none, u) => (s, s.site.timedOut request, t ++ u)

def permit (s : Server) : Server :=
  { s with permits := s.permits + 1 }

end Server

end BuildHooks.Host
