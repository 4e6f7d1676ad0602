import BuildHooks.Event.Basic
import BuildHooks.Event.Sample
import BuildHooks.Push.Extract

/-!
The events that are there from the start. A ping is answered with its own payload. The two push events
and the pull request hand their arguments to the scheduler, once, and answer what it triggered.
-/

namespace BuildHooks.Event

/-- The answer to an event that triggered jobs: what it was about, then one message for each job. -/
def triggered (event : String) (about : Json.Members) (outcomes : List Outcome) : Payload :=
  ("eventName", .string event) :: about
    ++ [("messages", .array (outcomes.map fun o => .string o.message))]

def pingFactory : Factory where
  sample := Sample.ping.indented
  create _ := .ok fun payload => .done (.ok payload)

def pushRecord (event : String) (push : Push) (outcomes : List Outcome) : Log.Record :=
  { level := .info
    source := .pushEvent
    message := "push processed"
    fields := [("event", .quoted event), ("repo", .plain push.repoUri),
               ("commit", .plain push.commit), ("triggered", .number outcomes.length)] }

def pushHandler (event : String) (push : Push) : Handler := fun _ => do
  match ← Task.call (.push push) with
  | .error failure =>
    return .error (failure.within s!"scheduling jobs for {push.repoUri} at {push.commit}")
  | .ok outcomes =>
    Task.write (pushRecord event push outcomes)
    return .ok (triggered event [("commit", .string push.commit)] outcomes)

/-- Handles notifications of pushed code. -/
def codePushedFactory : Factory where
  sample := Sample.codePushed.indented
  create payload :=
    match Push.ofNotification payload with
    | .error why => .error why
    | .ok push => do
      Task.writeSome push.addressNote?
      return .ok (pushHandler gitCodePushed push)

/-- Handles the flat form of pushes. -/
def pushFactory : Factory where
  sample := Sample.push.indented
  create payload := .done ((Push.ofFlat payload).map (pushHandler gitPush))

def pullRequestRecord (r : PullRequest) (outcomes : List Outcome) : Log.Record :=
  { level := .info
    source := .pullRequestEvent
    message := "pull request merge commit processed"
    fields := [("repo", .plain r.push.repoUri), ("pull_request", .number r.number),
               ("commit", .plain r.push.commit), ("triggered", .number outcomes.length)] }

def pullRequestHandler (r : PullRequest) : Handler := fun _ => do
  match ← Task.call (.pullRequest r) with
  | .error failure =>
    return .error
      (failure.within
        s!"scheduling builds for pull request {Text.showNat r.number} at {r.push.commit}")
  | .ok outcomes =>
    Task.write (pullRequestRecord r outcomes)
    return .ok (triggered pullRequestMergeCommitCreated
      [("pullRequestId", Json.ofNat r.number), ("commit", .string r.push.commit)] outcomes)

/-- Handles notifications of a pull request's merge commit. -/
def mergeCommitFactory : Factory where
  sample := Sample.mergeCommit.indented
  create payload :=
    match PullRequest.ofNotification payload with
    | .error why => .error why
    | .ok r => do
      Task.writeSome r.push.addressNote?
      return .ok (pullRequestHandler r)

/-- The events that are there from the start, in the order of their registration. -/
def builtins : List (String × Factory) :=
  [(ping, pingFactory), (gitCodePushed, codePushedFactory), (gitPush, pushFactory),
   (pullRequestMergeCommitCreated, mergeCommitFactory)]

end BuildHooks.Event
