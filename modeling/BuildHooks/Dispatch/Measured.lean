import BuildHooks.Dispatch.Basic

/-!
Measured dispatch: every request that is dispatched to its end is counted under its event and outcome,
its duration is recorded, and its end is noted. A request without an event counts as `unknown`.
-/

namespace BuildHooks

namespace Dispatch

/-- The event that a response is counted under. -/
def Response.label (r : Response) : String :=
  r.event.getD "unknown"

def Response.record (r : Response) : Log.Record :=
  { level := .info
    source := .metrics
    message := "dispatch complete"
    fields := [("event", .plain r.label), ("status", .number r.status.code),
               ("outcome", .quoted r.status.outcome)] }

def Response.measured (r : Response) : Task Response := do
  Task.record (.dispatched r.label r.status.outcome)
  Task.record (.duration r.label)
  Task.write r.record
  return r

end Dispatch

/-- Dispatches a body by its path, and measures it. -/
def Dispatcher.measured (d : Dispatcher) (path body : String) : Task Dispatch.Response := do
  let response ← d.dispatch path body
  response.measured

/-- How often each thing was measured, in the order of their first occurrence. -/
abbrev Tally := List (Metric × Nat)

namespace Tally

def add (t : Tally) (m : Metric) : Tally :=
  if t.any fun e => e.1 = m then t.map fun e => if e.1 = m then (m, e.2 + 1) else e
  else t ++ [(m, 1)]

def count (t : Tally) (m : Metric) : Nat :=
  ((t.find? fun e => e.1 = m).map Prod.snd).getD 0

def ofList (metrics : List Metric) : Tally :=
  metrics.foldl add []

end Tally

end BuildHooks
