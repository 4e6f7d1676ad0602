import BuildHooks.Failure
import BuildHooks.Job.Basic
import BuildHooks.Log.Record

/-!
Schedulers: what the events hand their work to. A call carries the arguments of a push or of a pull
request, and the reply names the jobs that reacted or says why none could.
-/

namespace BuildHooks

inductive Call where
  | push (args : Push)
  | pullRequest (args : PullRequest)
deriving DecidableEq, Repr

abbrev Reply := Except Failure (List Outcome)

/-- When a scheduler replies to a call: at once, never, or as soon as it is given a permit, one for each
call and in the order of the calls. -/
inductive Scheduler.Readiness where
  | atOnce
  | never
  | onPermit
deriving DecidableEq, Repr

/-- A scheduler: when it replies, and its reply to a call with the records it writes. -/
structure Scheduler where
  readiness : Scheduler.Readiness
  answer : Call → List Log.Record × Reply

namespace Scheduler

/-- A scheduler that replies the same to every call. -/
def constant (readiness : Readiness) (reply : Reply) : Scheduler :=
  ⟨readiness, fun _ => ([], reply)⟩

end Scheduler

end BuildHooks
