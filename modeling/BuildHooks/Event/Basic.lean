import BuildHooks.Event.Task
import BuildHooks.Payload.Field

/-!
Events. A factory checks the payload of a request and makes the handler for it; the handler does the
work and gives the payload of the answer. Both are tasks: a check may write records too.
-/

namespace BuildHooks

/-- The reaction to one accepted request. It is given the payload that was accepted. -/
abbrev Handler := Payload → Task (Except Failure Payload)

structure Factory where
  /-- A request body to show to readers. It is never dispatched. -/
  sample : String
  /-- The handler for a payload, or why the event does not accept it. -/
  create : Payload → Task (Except Payload.Rejection Handler)

namespace Event

def ping : String := "ping"

def gitCodePushed : String := "gitCodePushed"

def gitPush : String := "gitPush"

def pullRequestMergeCommitCreated : String := "pullRequestMergeCommitCreated"

/-- The names of the events that are there from the start, in the order of their registration. -/
def names : List String :=
  [ping, gitCodePushed, gitPush, pullRequestMergeCommitCreated]

end Event

end BuildHooks
