import BuildHooks.Json.Record
import BuildHooks.Push.Basic

/-!
The JSON form of pushes and pull requests: a flat object of their members. Of a push the pusher and the
branch may be left out; in a pull request the members of its push stand beside its own.
-/

namespace BuildHooks

namespace Push

/-- The members of a push. A branch that is not known has none. -/
def members (p : Push) : Json.Members :=
  [("collectionUri", .string p.collectionUri), ("repoUri", .string p.repoUri),
   ("projectId", .string p.projectId), ("repoId", .string p.repoId), ("commit", .string p.commit),
   ("pushedBy", .string p.pushedBy)]
    ++ (p.targetBranch.map fun b => ("targetBranch", Json.string b)).toList

def toJson (p : Push) : Json :=
  .object p.members

/-- A push of which some members may not have been read yet. -/
structure Draft where
  collectionUri : Option String
  repoUri : Option String
  projectId : Option String
  repoId : Option String
  commit : Option String
  pushedBy : Option String
  targetBranch : Option (Option String)

def Draft.blank : Draft :=
  ⟨none, none, none, none, none, none, none⟩

def fields : List (Json.Field Draft) :=
  [.of "collectionUri" .text Draft.collectionUri fun d v => { d with collectionUri := some v },
   .of "repoUri" .text Draft.repoUri fun d v => { d with repoUri := some v },
   .of "projectId" .text Draft.projectId fun d v => { d with projectId := some v },
   .of "repoId" .text Draft.repoId fun d v => { d with repoId := some v },
   .of "commit" .text Draft.commit fun d v => { d with commit := some v },
   .of "pushedBy" .text Draft.pushedBy fun d v => { d with pushedBy := some v },
   .of "targetBranch" .optionalText Draft.targetBranch fun d v => { d with targetBranch := some v }]

/-- The value of a member that must be there. -/
def required (name : String) : Option α → Except Json.Mismatch α
  | some a => .ok a
  | none => .error (.missing name)

/-- The push of a draft: the pusher is empty and the branch unknown when they were left out. -/
def Draft.finish (d : Draft) : Except Json.Mismatch Push := do
  return { collectionUri := ← required "collectionUri" d.collectionUri
           repoUri := ← required "repoUri" d.repoUri
           projectId := ← required "projectId" d.projectId
           repoId := ← required "repoId" d.repoId
           commit := ← required "commit" d.commit
           pushedBy := d.pushedBy.getD ""
           targetBranch := d.targetBranch.getD none }

def title : String := "struct GitCodePushedEventArgs"

def form : Json.Form Draft Push where
  title := title
  fields := fields
  blank := .blank
  other := Json.passOther
  listed := true
  finish := Draft.finish

def decode (text : String) : Except Json.Complaint Push :=
  Json.parseWith form.read text

end Push

namespace PullRequest

/-- The members of a pull request: those of its push first. -/
def members (r : PullRequest) : Json.Members :=
  r.push.members ++ [("pullRequestId", Json.ofNat r.number), ("iterationId", Json.ofInt r.iteration)]

def toJson (r : PullRequest) : Json :=
  .object r.members

/-- A pull request of which some members may not have been read yet. Those that are not its own are
kept as they were read. -/
structure Draft where
  number : Option Nat
  iteration : Option Int
  others : Json.Members

/-- Keeps a member for the push. -/
def keepOther (steps : Nat) (name : String) : Json.Scan (Draft → Draft) := fun cs =>
  (Json.readValue steps (Json.maxLevels - 1) cs).map fun r =>
    (fun d => { d with others := (name, r.1) :: d.others }, r.2)

def Draft.finish (d : Draft) : Except Json.Mismatch PullRequest := do
  let number ← Push.required "pullRequestId" d.number
  let iteration ← Push.required "iterationId" d.iteration
  let push ← Push.form.ofMembers d.others.reverse
  return { push, number, iteration }

/-- A pull request is always an object, because its push has no place of its own. -/
def form : Json.Form Draft PullRequest where
  title := "struct PullRequestMergeCommitCreatedEventArgs"
  fields :=
    [.of "pullRequestId" .unsigned Draft.number fun d v => { d with number := some v },
     .of "iterationId" .signed Draft.iteration fun d v => { d with iteration := some v }]
  blank := ⟨none, none, []⟩
  other := keepOther
  listed := false
  finish := Draft.finish

def decode (text : String) : Except Json.Complaint PullRequest :=
  Json.parseWith form.read text

end PullRequest

end BuildHooks
