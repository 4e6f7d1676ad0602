import BuildHooks.Host.Serving
import BuildHooks.Host.Step

/-!
A host from when it is told to serve until it returns, with everything that requests and others do
meanwhile. It is declared ready and finds out whether it can serve, serves until somebody wants no more or
it cannot go on, and in the first case waits for what is in flight. Shutdown is one of the things that may
happen at any time.
-/

namespace BuildHooks.Host

/-- Something that happens to a server: a step of its own, or somebody else than a request takes a guard
or gives one back. -/
inductive Move where
  | step (step : Step)
  | acquire
  | release (guardNumber : Nat)

/-- What a host meets while it serves. Shutdown is a step among the others; whoever told the host to
serve may end it without one. -/
structure Serving.Course where
  listening : Option Listener
  files : Files
  /-- What happens until it is clear whether the host can serve. -/
  loading : List Move
  /-- What happens from then until serving ends. -/
  serving : List Move
  /-- Why serving ended, if nobody wanted it to. -/
  broken : Option Failure
  /-- What happens after each look at what is in flight but the last. -/
  turns : List (List Move)

namespace Server

def move (s : Server) : Move → Server
  | .step step => (s.step step).1
  | .acquire => s.withLife fun l => l.acquire.2
  | .release n => s.withLife fun l => (l.release n).2

def moves (s : Server) (ms : List Move) : Server :=
  ms.foldl move s

/-- Waits until nothing is in flight, as long as there are turns. In a turn others do something, and then
comes the next look at what is in flight. Nothing happens after the last look. -/
def wait (s : Server) : List (List Move) → Server
  | [] => s.move (.step .drain)
  | others :: turns =>
    if s.life.drain.1 then s.move (.step .drain)
    else wait ((s.move (.step .drain)).moves others) turns

/-- Serves, and says how the server was left and whether serving failed. Nothing happens between the last
look at what is in flight and the return, nor between a failure and the return. -/
def serve (s : Server) (c : Serving.Course) : Server × Except Failure Unit :=
  let stage := Serving.begin s.site.config s.site.endpoint.root c.listening c.files s.life
  let judged := { s with life := stage.life }.moves c.loading
  match stage.result, c.broken with
  | .error failure, _ => (judged, .error failure)
  | .ok (), some failure => (judged.moves c.serving, .error failure)
  | .ok (), none => (((judged.moves c.serving).move (.step .trigger)).wait c.turns, .ok ())

end Server

end BuildHooks.Host
