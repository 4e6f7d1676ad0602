import BuildHooks.Host.Config
import BuildHooks.Host.Credentials
import BuildHooks.Lifecycle
import BuildHooks.Scheduler
import BuildHooks.Text.Integer

/-!
The course of serving: the host listens, declares itself ready, serves until it is told to stop, and
waits for what is in flight. Each stage says what it writes to the log and what becomes of the host's
life.
-/

namespace BuildHooks.Host.Serving

structure Listener where
  address : String
  port : Nat
deriving DecidableEq, Repr

def record (level : Log.Level) (message : String) (fields : List (String × Log.Value)) : Log.Record :=
  { level, source := .host, message, fields }

def boundRecord (config : Config) (listener : Listener) : Log.Record :=
  record .info "TCP listener bound"
    [("host", .plain config.host), ("port", .number listener.port)]

def acceptingRecord (root : String) : Log.Record :=
  record .info "accepting team events" [("url_name", .plain root)]

def servingRecord (config : Config) (listener : Listener) : Log.Record :=
  match config.tls with
  | none => record .info "Serving plain HTTP connections" []
  | some _ =>
    record .info
      s!"Serving TLS connections on {listener.address}:{Text.showNat listener.port}" []

def notListening : Failure :=
  .of "start() must be called before serve()"

/-- What a stage comes to: the life after it, what it wrote, and whether it failed. -/
structure Stage where
  life : Lifecycle
  records : List Log.Record
  result : Except Failure Unit

/-- The credentials of a configuration can be served with, if it asks for any. -/
def checkCredentials (config : Config) (files : Files) : Except Credentials.Fault Unit :=
  match config.tls with
  | none => .ok ()
  | some tls => Credentials.load files tls

/-- Begins to serve. The host is ready before its credentials are looked at. -/
def begin (config : Config) (root : String) (listening : Option Listener) (files : Files)
    (life : Lifecycle) : Stage :=
  match listening with
  | none => ⟨life, [], .error notListening⟩
  | some listener =>
    let life := life.setReady
    match checkCredentials config files with
    | .error fault => ⟨life, [acceptingRecord root], .error (.of fault.message)⟩
    | .ok () => ⟨life, [acceptingRecord root, servingRecord config listener], .ok ()⟩

def drainingRecord (inFlight : Nat) : Log.Record :=
  record .info "Draining in-flight event requests" [("in_flight", .number inFlight)]

def expiredRecord (inFlight : Nat) : Log.Record :=
  record .warn "Drain timeout expired with in-flight requests remaining"
    [("in_flight", .number inFlight)]

/-- Ends serving. Whatever is in flight stays so while it is waited for. -/
def finish (life : Lifecycle) : Stage :=
  let life := life.trigger
  let waiting := if 0 < life.inFlight then [drainingRecord life.inFlight] else []
  match life.drain with
  | (true, life) => ⟨life, waiting ++ [record .info "Shutdown complete" []], .ok ()⟩
  | (false, life) => ⟨life, waiting ++ [expiredRecord life.inFlight], .ok ()⟩

end BuildHooks.Host.Serving
