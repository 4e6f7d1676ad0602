import BuildHooks.Dispatch.Measured
import BuildHooks.Endpoint
import BuildHooks.Event.Page
import BuildHooks.Event.Template
import BuildHooks.Host.Config
import BuildHooks.Http.Encoding
import BuildHooks.Http.Origin
import BuildHooks.Http.Route
import BuildHooks.Lifecycle
import BuildHooks.Text.Percent

/-!
A site: what the host serves and how. This module gives the answers that need nothing but the site and
the state of its life, and puts the headers on every answer that all of them share.
-/

namespace BuildHooks.Host

/-- The parts of an answer that its route decides. -/
structure Content where
  status : Nat
  headers : Http.Headers
  body : String
deriving DecidableEq, Repr

namespace Content

def bare (status : Nat) : Content :=
  ⟨status, [], ""⟩

def typed (status : Nat) (contentType body : String) : Content :=
  ⟨status, [⟨"content-type", contentType⟩], body⟩

def plain (status : Nat) (body : String) : Content :=
  typed status "text/plain; charset=utf-8" body

def lengthHeader (c : Content) : Http.Header :=
  ⟨"content-length", Text.showNat c.body.utf8ByteSize⟩

end Content

structure Site where
  config : Config
  endpoint : Endpoint
  registry : Event.Registry
  scheduler : Scheduler
  routes : Http.Routes
  /-- The port that the page shows when no base URL is configured. -/
  shownPort : Nat

namespace Site

/-- The site for a configuration, unless the root of its events is refused. -/
def make? (config : Config) (endpoint : Endpoint) (registry : Event.Registry)
    (scheduler : Scheduler) (shownPort : Nat) : Option Site :=
  (Http.Routes.ofRoot? endpoint.root).map fun routes =>
    { config, endpoint, registry, scheduler, routes, shownPort }

def dispatcher (site : Site) : Dispatcher :=
  ⟨site.registry, site.endpoint.root⟩

def policy (site : Site) : Http.OriginPolicy :=
  .ofConfig site.config.origins

/-- The state of the host as a document. Seconds count from the start. -/
def healthBody (site : Site) (life : Lifecycle) (uptime : Nat) : String :=
  Payload.text
    [("state", .string life.health.name), ("events", Json.ofNat site.registry.size),
     ("in_flight", Json.ofNat life.inFlight), ("uptime_secs", Json.ofNat uptime)]

def page (site : Site) : String :=
  let values : Event.PageValues :=
    { root := site.endpoint.root
      rows := site.registry.rows site.endpoint.root
      baseUrl := site.endpoint.shownUrl site.config.host site.shownPort }
  values.fill Event.template

/-- The answer of a route to someone who only looks. -/
def look (site : Site) (life : Lifecycle) (uptime : Nat) : Http.Route → Content
  | .health => .typed 200 "application/json" (site.healthBody life uptime)
  | .live => .bare 200
  | .ready => .bare (if life.health = .ready then 200 else 503)
  | .page | .root => .typed 200 "text/html; charset=utf-8" site.page
  | .event => .bare 405

/-- How many bytes the body of a request for an event may have. -/
def maxBody : Nat := 2097152

/-- The answer to a request for an event with a body that is too long. -/
def tooLong : Content :=
  .plain 413 "Failed to buffer the request body: length limit exceeded"

/-- The answer to a request for an event once shutdown was asked for. -/
def shuttingDown : Content :=
  .plain 503 "Server is shutting down"

def dispatched (r : Dispatch.Response) : Content :=
  .typed r.status.code r.status.contentType r.body

def allowHeader (route : Http.Route) : Http.Header :=
  ⟨"allow", ",".intercalate route.methods⟩

/-- Whose answer carries an identifier: the caller's first one, or a fresh one. -/
def identifier (request : Http.Headers) (fresh : String) : Http.Header :=
  ⟨"x-request-id", (request.first? "x-request-id").getD fresh⟩

/-- The headers about the encoding of a body. A short body is never compressed; where another caller
might have had a compressed body, that is said. -/
def encodingHeaders (request : Http.Headers) (c : Content) : Http.Headers :=
  let vary : Http.Header := ⟨"vary", "accept-encoding"⟩
  if c.body.utf8ByteSize < Http.Encoding.leastBytes then [c.lengthHeader]
  else match Http.Encoding.wanted request with
    | .gzip => [vary, ⟨"content-encoding", "gzip"⟩]
    | .identity => [vary, c.lengthHeader]

/-- The body of an answer to a method: whoever asks for the headers alone gets no body. -/
def bodyFor (method : String) (c : Content) : String :=
  if method = "HEAD" then "" else c.body

/-- A whole answer, with the headers that all answers share. -/
def answer (site : Site) (request : Http.Request) (marks : Http.Headers) (c : Content) :
    Http.Response :=
  { status := c.status
    headers := c.headers ++ marks ++ encodingHeaders request.headers c
      ++ site.policy.headers request.headers
    body := bodyFor request.method c }

def identified (site : Site) (request : Http.Request) (fresh : String) (c : Content) :
    Http.Response :=
  site.answer request [identifier request.headers fresh] c

/-- The answer to a request whose path leads nowhere. Its length is only given for a target that is not
a path at all. -/
def nowhere (site : Site) (request : Http.Request) (fresh : String) : Http.Response :=
  let length := if request.path.startsWith "/" then [] else [(Content.bare 404).lengthHeader]
  { status := 404
    headers := identifier request.headers fresh :: length ++ site.policy.headers request.headers
    body := "" }

/-- The answer to a browser that asks what it may send. -/
def preflight (site : Site) (request : Http.Request) : Http.Response :=
  let more := match site.routes.find? request.path with
    | some route => [allowHeader route, (Content.bare 200).lengthHeader]
    | none => if request.path.startsWith "/" then [] else [(Content.bare 200).lengthHeader]
  { status := 200
    headers := more ++ site.policy.preflightHeaders request.headers
    body := "" }

def wrongMethod (site : Site) (request : Http.Request) (fresh : String) (route : Http.Route) :
    Http.Response :=
  site.identified request fresh ⟨405, [allowHeader route], ""⟩

/-- The answer to a request that took too long. It was given up before it got an identifier. -/
def timedOut (site : Site) (request : Http.Request) : Http.Response :=
  site.answer request [] (.bare 408)

end Site

end BuildHooks.Host
