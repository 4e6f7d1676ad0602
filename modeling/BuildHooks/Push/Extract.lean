import BuildHooks.Log.Record
import BuildHooks.Payload.Field
import BuildHooks.Push.Basic
import BuildHooks.Text.Lowercase

/-!
Reading pushes and pull requests out of payloads. A notification holds them inside an envelope, where
the address of the collection is cut from the address of the repository. The flat form holds a push as
it is. The checks come in a fixed order and the first that fails is reported.
-/

namespace BuildHooks

/-- What stands in the address of a repository between the project and the repository's name. -/
def repositoryMark : List Char :=
  "/_git/".toList

def withFinalSlash (cs : List Char) : List Char :=
  if cs.getLast? = some '/' then cs else cs ++ ['/']

/-- What is left of `cs` when a slash and the project's name, in any case of ASCII letters, are taken
off its end. Something must be left. -/
def dropProject? (project cs : List Char) : Option (List Char) :=
  let start := cs.length - (project.length + 1)
  if 0 < start ∧ Text.sameIgnoringAsciiCase (cs.drop start) ('/' :: project) then
    some (cs.take start)
  else none

/-- The part of a repository's address before its mark. -/
def beforeMark? (remote : String) : Option (List Char) :=
  (Text.breakAt? repositoryMark remote.toList).map Prod.fst

/-- The address of the collection that a repository with the address `remote` is in. -/
def collectionUri? (remote project : String) : Option String :=
  (beforeMark? remote).map fun before =>
    String.ofList (withFinalSlash ((dropProject? project.toList before).getD before))

/-- The path of the address of the repository in a notification. -/
def remotePath : String := "resource.repository.remoteUrl"

/-- The address of the collection, or what is wrong with the repository's. -/
def requiredCollection (remote project : String) : Except Payload.Rejection String :=
  match collectionUri? remote project with
  | some uri => .ok uri
  | none => .error (.invalid remotePath "a Git remote URL containing '/_git/'")

/-- Reads a push out of the notification of pushed code. Only the first updated ref counts. -/
def Push.ofNotification (payload : Payload) : Except Payload.Rejection Push := do
  let repoUri ← payload.requiredText remotePath
  let repoId ← payload.requiredText "resource.repository.name"
  let projectId ← payload.requiredText "resource.repository.project.name"
  let ref ← payload.requiredText "resource.refUpdates.0.name"
  let commit ← payload.requiredText "resource.refUpdates.0.newObjectId"
  let pushedBy ← payload.optionalText "resource.pushedBy.displayName"
  let collectionUri ← requiredCollection repoUri projectId
  return { collectionUri, repoUri, projectId, repoId, commit
           pushedBy := pushedBy.getD ""
           targetBranch := some (branchName ref) }

/-- Reads a push out of its flat form. A blank branch is none. -/
def Push.ofFlat (payload : Payload) : Except Payload.Rejection Push := do
  let collection ← payload.requiredText "collectionUri"
  let branch ← payload.optionalText "targetBranch"
  let repoUri ← payload.requiredText "repoUri"
  let projectId ← payload.requiredText "projectId"
  let repoId ← payload.requiredText "repoId"
  let commit ← payload.requiredText "commit"
  let pushedBy ← payload.optionalText "pushedBy"
  return { repoUri, projectId, repoId, commit
           collectionUri := String.ofList (withFinalSlash collection.toList)
           pushedBy := pushedBy.getD ""
           targetBranch := (branch.filter fun b => !Text.isAllBlank b).map branchName }

/-- Reads a pull request out of the notification of its merge commit. -/
def PullRequest.ofNotification (payload : Payload) : Except Payload.Rejection PullRequest := do
  let repoUri ← payload.requiredText remotePath
  let repoId ← payload.requiredText "resource.repository.name"
  let projectId ← payload.requiredText "resource.repository.project.name"
  let number ← payload.requiredPositive "resource.pullRequestId"
  let commit ← payload.requiredText "resource.lastMergeCommit.commitId"
  let target ← payload.requiredText "resource.targetRefName"
  let createdBy ← payload.optionalText "resource.createdBy.displayName"
  let iteration ← payload.optionalInteger "resource.iterationId"
  let collectionUri ← requiredCollection repoUri projectId
  return { number
           push := { collectionUri, repoUri, projectId, repoId, commit
                     pushedBy := createdBy.getD ""
                     targetBranch := some (branchName target) }
           iteration := iteration.getD (-1) }

/-- The note about an address in which the project could not be told from the collection. -/
def Push.addressNote? (push : Push) : Option Log.Record :=
  match beforeMark? push.repoUri with
  | some before =>
    if (dropProject? push.projectId.toList before).isSome then none
    else some
      { level := .debug
        source := .arguments
        message := "remote URL has no project segment"
        fields := [("remote_url", .quoted push.repoUri), ("project", .quoted push.projectId)] }
  | none => none

end BuildHooks
