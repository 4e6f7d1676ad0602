import BuildHooks.Endpoint
import BuildHooks.Host.Config
import BuildHooks.Log.Format
import BuildHooks.Text.Blank
import BuildHooks.Text.Cut
import BuildHooks.Text.Integer

/-!
The settings of the program. Each has a name on the command line and a variable in the environment; the
command line comes first, then the environment, then the setting's own default.

While they are gathered the settings are kept in a draft, in which every one may still be absent.
-/

namespace BuildHooks.CommandLine

/-- What is wrong with a command line. -/
inductive Problem where
  /-- A value is missing, empty where it must not be, or none of those that are possible. -/
  | invalidValue
  /-- A value is no number, or out of range. -/
  | valueValidation
  | unknownArgument
  /-- A setting is given twice. -/
  | argumentConflict
  /-- A setting is missing that another one needs. -/
  | missingRequired
  /-- A value is given to something that takes none. -/
  | tooManyValues
deriving DecidableEq, Repr

def Problem.message : Problem → String
  | .invalidValue => "a value is missing, empty or not one of the possible values"
  | .valueValidation => "a value is not a number in the range of its setting"
  | .unknownArgument => "unexpected argument"
  | .argumentConflict => "a setting is given more than once"
  | .missingRequired => "a certificate and a key require each other"
  | .tooManyValues => "a value is given to a flag that takes none"

structure Settings where
  host : String
  port : Nat
  root : String
  baseUrl : Option String
  jobsFile : Option String
  logFormat : Log.Format
  requestTimeout : Nat
  origins : List String
  certificate : Option String
  key : Option String
  metricsPort : Option Nat
deriving DecidableEq, Repr

structure Draft where
  host : Option String
  port : Option Nat
  root : Option String
  baseUrl : Option String
  jobsFile : Option String
  logFormat : Option Log.Format
  requestTimeout : Option Nat
  origins : Option (List String)
  certificate : Option String
  key : Option String
  metricsPort : Option Nat

def Draft.blank : Draft :=
  ⟨none, none, none, none, none, none, none, none, none, none, none⟩

def anyText (s : String) : Except Problem String :=
  .ok s

/-- The name of a file. It is not empty. -/
def filePath (s : String) : Except Problem String :=
  if s.isEmpty then .error .invalidValue else .ok s

/-- The number of a port. A sign is allowed where the number is in range. -/
def portNumber (s : String) : Except Problem Nat :=
  match Text.integer? s.toList with
  | some n => if 0 ≤ n ∧ n < 65536 then .ok n.toNat else .error .valueValidation
  | none => .error .valueValidation

/-- A number of seconds below 2^64. -/
def seconds (s : String) : Except Problem Nat :=
  match Text.naturalBelow? Text.wordEnd s.toList with
  | some n => .ok n
  | none => .error .valueValidation

def formats : List (String × Log.Format) :=
  [("pretty", .pretty), ("json", .json)]

def formatNamed (s : String) : Except Problem Log.Format :=
  match formats.find? fun f => f.1 == s with
  | some f => .ok f.2
  | none => .error .invalidValue

/-- A setting: how it is called, what is said about it, and its place in the draft. -/
structure Setting where
  name : String
  envName : String
  about : Option String
  /-- What holds if the setting is not given, as it is told to readers. -/
  fallback : Option String
  choices : List String
  /-- It may be given several times, each time adding to what was given before. -/
  repeats : Bool
  given : Draft → Bool
  set : Draft → String → Except Problem Draft

/-- A setting that is given once, with a value that `read` understands. -/
def Setting.once (name envName : String) (about fallback : Option String)
    (read : String → Except Problem α) (get : Draft → Option α) (put : Draft → α → Draft) :
    Setting where
  name := name
  envName := envName
  about := about
  fallback := fallback
  choices := []
  repeats := false
  given draft := (get draft).isSome
  set draft s := (read s).map (put draft)

/-- The origins that may read answers, separated by commas. -/
def originsSetting : Setting where
  name := "cors-origins"
  envName := "TEAM_EVENTS_CORS_ORIGINS"
  about := some "Comma-separated allowed origins, `*` for any"
  fallback := some "*"
  choices := []
  repeats := true
  given draft := draft.origins.isSome
  set draft s := .ok { draft with origins := some (draft.origins.getD [] ++ Text.splitText ',' s) }

/-- The settings in the order in which they are told to readers. -/
def settings : List Setting :=
  [.once "host" "TEAM_EVENTS_HOST" (some "Address to bind") (some "0.0.0.0") anyText
     Draft.host fun d v => { d with host := some v },
   .once "port" "TEAM_EVENTS_PORT" none (some "8080") portNumber
     Draft.port fun d v => { d with port := some v },
   .once "url-name" "TEAM_EVENTS_URL_NAME"
     (some "Root path segment: events are posted to `/<url-name>/<eventName>`")
     (some "team-events") anyText Draft.root fun d v => { d with root := some v },
   .once "root-url" "TEAM_EVENTS_ROOT_URL"
     (some "Public base URL shown on the index page. Defaults to `http://<host>:<port>/`") none
     anyText Draft.baseUrl fun d v => { d with baseUrl := some v },
   .once "jobs-file" "TEAM_EVENTS_JOBS_FILE"
     (some "JSON file listing the jobs to poll or build. Without it no job is triggered") none
     filePath Draft.jobsFile fun d v => { d with jobsFile := some v },
   { Setting.once "log-format" "TEAM_EVENTS_LOG_FORMAT" none (some "pretty") formatNamed
       Draft.logFormat fun d v => { d with logFormat := some v } with
     choices := formats.map Prod.fst },
   .once "request-timeout-secs" "TEAM_EVENTS_REQUEST_TIMEOUT_SECS" none (some "30") seconds
     Draft.requestTimeout fun d v => { d with requestTimeout := some v },
   originsSetting,
   .once "tls-cert" "TEAM_EVENTS_TLS_CERT"
     (some "PEM certificate; serving HTTPS requires `--tls-key` too") none filePath
     Draft.certificate fun d v => { d with certificate := some v },
   .once "tls-key" "TEAM_EVENTS_TLS_KEY" none none filePath
     Draft.key fun d v => { d with key := some v },
   .once "metrics-port" "TEAM_EVENTS_METRICS_PORT"
     (some "Expose Prometheus metrics on this port") none portNumber
     Draft.metricsPort fun d v => { d with metricsPort := some v }]

/-- The settings of a draft. Certificate and key need each other. -/
def Draft.finish (d : Draft) : Except Problem Settings :=
  if d.certificate.isSome != d.key.isSome then .error .missingRequired
  else .ok
    { host := d.host.getD "0.0.0.0"
      port := d.port.getD 8080
      root := d.root.getD "team-events"
      baseUrl := d.baseUrl
      jobsFile := d.jobsFile
      logFormat := d.logFormat.getD .pretty
      requestTimeout := d.requestTimeout.getD 30
      origins := d.origins.getD ["*"]
      certificate := d.certificate
      key := d.key
      metricsPort := d.metricsPort }

namespace Settings

/-- The files for serving over TLS. -/
def tls (s : Settings) : Option Host.Tls :=
  match s.certificate, s.key with
  | some certificate, some key => some { certificate, key }
  | _, _ => none

/-- How and where the host listens. Shutdown waits as long as by default. -/
def network (s : Settings) : Host.Config :=
  { Host.Config.default with
    host := s.host
    port := s.port
    tls := s.tls
    origins := s.origins
    requestTimeout := s.requestTimeout }

/-- Where the events are served. Slashes around the root are left out. -/
def endpoint (s : Settings) : Endpoint where
  root := String.ofList (Text.dropBothWhile (· = '/') s.root.toList)
  baseUrl := s.baseUrl

end Settings

end BuildHooks.CommandLine
