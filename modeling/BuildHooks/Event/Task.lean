import BuildHooks.Scheduler

/-!
Tasks: the work on one request, as far as others can see it. A task writes records, adds to the
measurements and asks the scheduler; where it asks it waits for the reply. So a task can be run to its
end with a scheduler that always replies, or be stopped where it waits and go on later.
-/

namespace BuildHooks

/-- Something that is measured: a request that was dispatched, with its outcome, or how long one took.
Only the number of durations counts here. -/
inductive Metric where
  | dispatched (event outcome : String)
  | duration (event : String)
deriving DecidableEq, Repr

inductive Task (α : Type) where
  | done (result : α)
  | note (record : Log.Record) (next : Task α)
  | measure (metric : Metric) (next : Task α)
  | ask (call : Call) (next : Reply → Task α)

/-- What a task let others see. -/
structure Trace where
  records : List Log.Record
  metrics : List Metric
  calls : List Call
deriving Repr

namespace Trace

def empty : Trace :=
  ⟨[], [], []⟩

def append (s t : Trace) : Trace :=
  ⟨s.records ++ t.records, s.metrics ++ t.metrics, s.calls ++ t.calls⟩

instance : Append Trace := ⟨append⟩

/-- The trace of one call alone. -/
def ofCall (call : Call) : Trace :=
  ⟨[], [], [call]⟩

end Trace

namespace Task

/-- Goes on with `f` when the task is done. -/
def bind : Task α → (α → Task β) → Task β
  | done a, f => f a
  | note r next, f => note r (bind next f)
  | measure m next, f => measure m (bind next f)
  | ask call next, f => ask call fun reply => bind (next reply) f

instance : Monad Task where
  pure := done
  bind := bind

def write (record : Log.Record) : Task Unit :=
  note record (done ())

def writeSome : Option Log.Record → Task Unit
  | some record => write record
  | none => done ()

def record (metric : Metric) : Task Unit :=
  measure metric (done ())

def call (c : Call) : Task Reply :=
  ask c done

/-- A task that is done and succeeded. -/
def ok (a : α) : Task (Except ε α) :=
  done (.ok a)

/-- A task that is done and failed. -/
def error (e : ε) : Task (Except ε α) :=
  done (.error e)

/-- The result of a task and what it let others see, when every call is answered at once. -/
def run (answer : Call → List Log.Record × Reply) : Task α → α × Trace
  | done a => (a, .empty)
  | note r next =>
    let (a, t) := run answer next
    (a, { t with records := r :: t.records })
  | measure m next =>
    let (a, t) := run answer next
    (a, { t with metrics := m :: t.metrics })
  | ask c next =>
    let (a, t) := run answer (next (answer c).2)
    (a, { t with records := (answer c).1 ++ t.records, calls := c :: t.calls })

/-- Where a task has come to when nobody has replied to it yet. -/
inductive Stop (α : Type) where
  | finished (result : α)
  | waiting (call : Call) (next : Reply → Task α)

end Task

end BuildHooks
