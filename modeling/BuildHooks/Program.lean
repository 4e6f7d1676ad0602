import BuildHooks.CommandLine.Parse
import BuildHooks.Host.Server
import BuildHooks.Host.Serving
import BuildHooks.Job.Catalog
import BuildHooks.Log.Filter

/-!
The course of the program. It opens in a fixed order: the metrics are offered to their readers, the jobs
are loaded, the host listens, and serves. Any of these stages may fail, and what the earlier ones wrote to
the log stays written. Then the program works until it is told to stop, and closes.
-/

namespace BuildHooks.Program

/-- What a program finds where it runs. -/
structure Surroundings where
  environment : CommandLine.Environment
  files : Host.Files
  /-- What offering the metrics on a port of every address comes to. -/
  offerMetrics : Nat → Except String Unit
  /-- What listening on an address and a port comes to. -/
  listen : String → Nat → Except String Host.Serving.Listener

/-- Why the program stops by itself. -/
inductive Halt where
  | failed (failure : Failure)
  /-- The root of the events is none that can be served. -/
  | badRoot
deriving DecidableEq, Repr

/-- A part of the course: what it wrote to the log, and what it came to. -/
structure Step (α : Type) where
  records : List Log.Record
  result : Except Halt α

namespace Step

/-- Goes on with `next` unless the program stopped. -/
def bind (s : Step α) (next : α → Step β) : Step β :=
  match s.result with
  | .error halt => ⟨s.records, .error halt⟩
  | .ok a => ⟨s.records ++ (next a).records, (next a).result⟩

instance : Monad Step where
  pure a := ⟨[], .ok a⟩
  bind := bind

def write (records : List Log.Record) : Step Unit :=
  ⟨records, .ok ()⟩

def halt (why : Halt) : Step α :=
  ⟨[], .error why⟩

def fail (failure : Failure) : Step α :=
  halt (.failed failure)

/-- What something gave, or a failure for its reason. -/
def ofExcept (failure : ε → Failure) : Except ε α → Step α
  | .ok a => pure a
  | .error e => fail (failure e)

end Step

/-- A record of the program itself. -/
def record (level : Log.Level) (message : String) (fields : List (String × Log.Value)) : Log.Record :=
  { level, source := .program, message, fields }

/-! ### Opening -/

def metricsFailure (reason : String) : Failure :=
  (Failure.of s!"failed to create HTTP listener: {reason}").within "installing Prometheus exporter"

def metricsRecord (port : Nat) : Log.Record :=
  record .info "Prometheus metrics exporter listening" [("addr", .plain s!"0.0.0.0:{Text.showNat port}")]

/-- Offers the metrics to their readers, if there is a port for them. -/
def openMetrics (s : CommandLine.Settings) (w : Surroundings) : Step Unit :=
  match s.metricsPort with
  | none => pure ()
  | some port => do
    Step.ofExcept metricsFailure (w.offerMetrics port)
    Step.write [metricsRecord port]

def noJobsRecord : Log.Record :=
  record .warn "No job file configured; events will not trigger any job" []

/-- Loads the jobs, if there is a file of them. -/
def openJobs (s : CommandLine.Settings) (w : Surroundings) : Step Catalog :=
  match s.jobsFile with
  | none => do
    Step.write [noJobsRecord]
    return .empty
  | some path => do
    let content := (w.files path).mapError Host.FileProblem.message
    let catalog ← Step.ofExcept (Catalog.LoadFault.failure path) (Catalog.load content)
    Step.write [catalog.loadedRecord path]
    return catalog

/-- The record of a program that listens on a port. The root is shown as it was given. -/
def startedRecord (s : CommandLine.Settings) (port : Nat) : Log.Record :=
  record .info "team events server started" [("port", .number port), ("url_name", .plain s.root)]

/-- Listens where the settings say. -/
def openListener (s : CommandLine.Settings) (w : Surroundings) : Step Host.Serving.Listener := do
  let listener ← Step.ofExcept Failure.of (w.listen s.host s.port)
  Step.write [Host.Serving.boundRecord s.network listener, startedRecord s listener.port]
  return listener

/-- The site of the built-in events over a catalog. -/
def openSite (s : CommandLine.Settings) (catalog : Catalog) (port : Nat) : Step Host.Site :=
  match Host.Site.make? s.network s.endpoint .default catalog.scheduler port with
  | none => Step.halt .badRoot
  | some site => pure site

def openServer (w : Surroundings) (site : Host.Site) (listener : Host.Serving.Listener) :
    Step Host.Server := do
  let server := Host.Server.ofSite site
  let stage := Host.Serving.begin site.config site.endpoint.root (some listener) w.files server.life
  Step.write stage.records
  Step.ofExcept id stage.result
  return { server with life := stage.life }

/-- Opens the program, up to a server that serves. -/
def opening (s : CommandLine.Settings) (w : Surroundings) : Step Host.Server := do
  openMetrics s w
  let catalog ← openJobs s w
  let listener ← openListener s w
  let site ← openSite s catalog listener.port
  openServer w site listener

/-! ### Closing -/

def stopRecord : Log.Record :=
  record .info "Shutdown signal received" []

def closing (server : Host.Server) : Step Host.Server :=
  let stage := Host.Serving.finish server.life
  ⟨stopRecord :: stage.records, .ok { server with life := stage.life }⟩

/-! ### The end -/

/-- How the program ends: its exit code, and what it says about a failure. -/
structure Ending where
  code : Nat
  report : Option String
deriving DecidableEq, Repr

/-- The end after the program stopped by itself. -/
def Halt.ending : Halt → Ending
  | .failed failure => ⟨1, some s!"Error: {failure.report}\n"⟩
  | .badRoot => ⟨101, none⟩

/-- The end after a part of the course. -/
def Step.ending (s : Step α) : Ending :=
  match s.result with
  | .ok _ => ⟨0, none⟩
  | .error halt => halt.ending

/-- The exit code of a program that was not run because of its command line. -/
def stopCode : CommandLine.Stop → Nat
  | .help | .version => 0
  | .wrong _ => 2

/-- The variable with the directives about what is written to the log. -/
def filterVariable : String := "RUST_LOG"

/-- The records that are written of those that a program has. -/
def Surroundings.written (w : Surroundings) (records : List Log.Record) : List Log.Record :=
  records.filter (Log.Filter.ofText (w.environment filterVariable)).admits

end BuildHooks.Program
