import BuildHooks.CommandLine.Help
import BuildHooks.Dispatch.Exposition
import BuildHooks.Http.Identifier
import BuildHooks.Http.Wire
import BuildHooks.Program
import Std.Async.DNS
import Std.Async.Signal
import Std.Async.TCP

/-!
The program on a real machine. This outer layer only moves bytes: it reads variables and files, listens,
hands what comes in on a connection to the server, and writes what the server answers. What is read, in
which order things happen and what is answered is decided by the modules that it imports.

Encryption is left to a proxy in front of the program: with a certificate configured, the credentials are
checked, and connections are closed as they come.
-/

namespace BuildHooks.Main

open Std.Async

/-! ### Surroundings -/

def readEnvironment : IO CommandLine.Environment := do
  let names := Program.filterVariable :: CommandLine.settings.map CommandLine.Setting.envName
  let found ← names.filterMapM fun name => do
    return (← IO.getEnv name).map fun value => (name, value)
  return fun name => found.lookup name

def fileProblem : IO.Error → Host.FileProblem
  | .noFileOrDirectory .. => .missing
  | .permissionDenied .. => .notPermitted
  | .inappropriateType .. => .directory
  | e => .other (toString e)

def readFile (path : String) : IO (Except Host.FileProblem (List UInt8)) := do
  try
    return .ok (← IO.FS.readBinFile path).toList
  catch e =>
    return .error (fileProblem e)

def readFiles (s : CommandLine.Settings) : IO Host.Files := do
  let paths := s.jobsFile.toList ++ s.certificate.toList ++ s.key.toList
  let found ← paths.mapM fun path => do
    return (path, ← readFile path)
  return fun path => (found.lookup path).getD (.error .missing)

def listenProblem : IO.Error → String
  | .resourceBusy .. => "Address already in use (os error 98)"
  | .permissionDenied .. => "Permission denied (os error 13)"
  | e => toString e

/-- The address of a host, which may be a name. -/
def resolve (host : String) : IO Std.Net.IPAddr := do
  match Std.Net.IPv4Addr.ofString host, Std.Net.IPv6Addr.ofString host with
  | some a, _ => return .v4 a
  | none, some a => return .v6 a
  | none, none =>
    let found ← (DNS.getAddrInfo host "").block
    match found[0]? with
    | some a => return a
    | none => throw (IO.userError "failed to lookup address information")

def socketAddress (port : Nat) : Std.Net.IPAddr → Std.Net.SocketAddress
  | .v4 a => .v4 ⟨a, port.toUInt16⟩
  | .v6 a => .v6 ⟨a, port.toUInt16⟩

def portOf : Std.Net.SocketAddress → Nat
  | .v4 a => a.port.toNat
  | .v6 a => a.port.toNat

/-- A socket that listens, with what it listens on. -/
structure Listening where
  socket : TCP.Socket.Server
  listener : Host.Serving.Listener

/-- Listens on an address and a port. -/
def listenOn (host : String) (port : Nat) : IO (Except String Listening) := do
  try
    let address ← resolve host
    let socket ← TCP.Socket.Server.mk
    socket.bind (socketAddress port address)
    socket.listen 1024
    return .ok ⟨socket, ⟨toString address, portOf (← socket.getSockName)⟩⟩
  catch e =>
    return .error (listenProblem e)

/-! ### Connections -/

/-- A server at work. -/
structure Work where
  server : IO.Ref Host.Server
  tally : IO.Ref Tally
  /-- When the server began, in milliseconds. -/
  began : Nat
  /-- Writes records to the log. -/
  log : List Log.Record → IO Unit

/-- Hands a request to the server. -/
def Work.answer (w : Work) (request : Http.Request) : IO Http.Response := do
  let fresh := Http.Identifier.ofBytes (← IO.getRandomBytes 16).toList
  let uptime := ((← IO.monoMsNow) - w.began) / 1000
  let (response, t) ← w.server.modifyGet fun s =>
    let (s, response, t) := s.handle 0 fresh uptime request
    ((response, t), s)
  w.tally.modify fun tally => t.metrics.foldl Tally.add tally
  w.log t.records
  return response

def send (client : TCP.Socket.Client) (response : Http.Response) (last : Bool) : Async Unit :=
  client.send ⟨(Http.Wire.write response last).toArray⟩

/-- How many bytes may come in before there is a whole request. -/
def maxArrival : Nat := 2 * Host.Site.maxBody

/-- Answers the requests of a connection that has brought some bytes. -/
partial def converse (answer : Http.Request → IO Http.Response) (client : TCP.Socket.Client)
    (bytes : List UInt8) : Async Unit := do
  match Http.Wire.arrival bytes with
  | .broken => send client (Http.Wire.refusal 400) true
  | .incomplete =>
    if maxArrival < bytes.length then send client (Http.Wire.refusal 413) true
    else
      match ← client.recv? 65536 with
      | none => return
      | some more => converse answer client (bytes ++ more.toList)
  | .request request last rest =>
    send client (← answer request) last
    if last then return else converse answer client rest

/-- Takes connections and lets each be served beside the others. -/
partial def accept (serve : TCP.Socket.Client → Async Unit) (socket : TCP.Socket.Server) :
    Async Unit := do
  let client ← socket.accept
  background do
    try
      serve client
      client.shutdown
    catch _ => return
  accept serve socket

/-- The answer to those who read the metrics. -/
def Work.metrics (w : Work) : IO Http.Response := do
  let lines := (← w.tally.get).exposition
  return { status := 200
           headers := [⟨"content-type", "text/plain; version=0.0.4"⟩]
           body := String.join (lines.map fun line => line ++ "\n") }

/-! ### The course -/

/-- Writes what is told to standard error. -/
def complain (text : String) : IO Unit := do
  (← IO.getStderr).putStr text

def finish (e : Program.Ending) : IO UInt32 := do
  complain (e.report.getD "")
  return e.code.toUInt32

/-- Serves until the program is interrupted. -/
def serve (server : Host.Server) (log : List Log.Record → IO Unit) (main : Listening)
    (metrics : Option Listening) : IO UInt32 := do
  let interrupt ← Signal.Waiter.mk .sigint false
  let told ← interrupt.wait
  let w : Work :=
    { server := ← IO.mkRef server, tally := ← IO.mkRef [], began := ← IO.monoMsNow, log }
  let encrypted := server.site.config.tls.isSome
  let work (client : TCP.Socket.Client) : Async Unit :=
    if encrypted then pure () else converse w.answer client []
  let _ ← (accept work main.socket).toIO
  match metrics with
  | some m =>
    let _ ← (accept (fun client => converse (fun _ => w.metrics) client []) m.socket).toIO
  | none => pure ()
  let _ ← told.block
  let closing := Program.closing (← w.server.get)
  log closing.records
  finish closing.ending

def run (environment : CommandLine.Environment) (s : CommandLine.Settings) : IO UInt32 := do
  let files ← readFiles s
  let metrics ← s.metricsPort.mapM (listenOn "0.0.0.0")
  let main ← listenOn s.host s.port
  let w : Program.Surroundings :=
    { environment, files
      offerMetrics := fun _ => (metrics.getD (.error "")).map fun _ => ()
      listen := fun _ _ => main.map Listening.listener }
  let out ← IO.getStdout
  let log (records : List Log.Record) : IO Unit := do
    (w.written records).forM fun r => out.putStrLn (s.logFormat.write r)
    out.flush
  let opening := Program.opening s w
  log opening.records
  match opening.result, main with
  | .ok server, .ok main => serve server log main (metrics.bind Except.toOption)
  | _, _ => finish opening.ending

def start (args : List String) : IO UInt32 := do
  let environment ← readEnvironment
  match CommandLine.parse environment args with
  | .ok s => run environment s
  | .error stop =>
    match stop with
    | .help => IO.print (CommandLine.helpText environment)
    | .version => IO.print CommandLine.versionText
    | .wrong problem => complain s!"error: {problem.message}\n"
    return (Program.stopCode stop).toUInt32

end BuildHooks.Main

/-- The program: `--help` tells about its arguments. -/
def main (args : List String) : IO UInt32 :=
  BuildHooks.Main.start args
