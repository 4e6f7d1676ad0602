/-!
The life of the host: it starts, is ready, drains once shutdown is asked for, and stops when nothing is
in flight any more. It never goes back. A request that is being dispatched holds a guard, and the guards
that are held are what is in flight.
-/

namespace BuildHooks

inductive Health where
  | starting
  | ready
  | draining
  | stopped
deriving DecidableEq, Repr

namespace Health

def name : Health → String
  | .starting => "starting"
  | .ready => "ready"
  | .draining => "draining"
  | .stopped => "stopped"

/-- New requests for events are dispatched. -/
def acceptsEvents : Health → Bool
  | .starting => true
  | .ready => true
  | .draining => false
  | .stopped => false

end Health

structure Lifecycle where
  health : Health
  /-- Shutdown was asked for. -/
  signalled : Bool
  /-- How many guards were ever given out; they are numbered from zero. -/
  issued : Nat
  /-- The guards that are held. -/
  held : List Nat
deriving DecidableEq, Repr

namespace Lifecycle

def fresh : Lifecycle :=
  ⟨.starting, false, 0, []⟩

def inFlight (l : Lifecycle) : Nat :=
  l.held.length

/-- The host is ready, unless shutdown was asked for before. -/
def setReady (l : Lifecycle) : Lifecycle :=
  if l.health = .starting then { l with health := .ready } else l

/-- Asks for shutdown. Asking again changes nothing. -/
def trigger (l : Lifecycle) : Lifecycle :=
  { l with
    health := if l.health.acceptsEvents then .draining else l.health
    signalled := true }

def acquire (l : Lifecycle) : Nat × Lifecycle :=
  (l.issued, { l with issued := l.issued + 1, held := l.held ++ [l.issued] })

/-- Takes a guard back, and says whether it was held. -/
def release (l : Lifecycle) (guardNumber : Nat) : Bool × Lifecycle :=
  (l.held.contains guardNumber, { l with held := l.held.erase guardNumber })

/-- Looks whether nothing is in flight. A host that drains then stops. -/
def drain (l : Lifecycle) : Bool × Lifecycle :=
  if l.held.isEmpty then
    (true, if l.health = .draining then { l with health := .stopped } else l)
  else (false, l)

end Lifecycle

end BuildHooks
