import BuildHooks.Text.Cut

/-!
What the program knows of pushed code and of the merge commit of a pull request.
-/

namespace BuildHooks

/-- Where code was pushed, which commit it produced and who pushed it. -/
structure Push where
  /-- The collection that the repository is in, ending in a slash. -/
  collectionUri : String
  /-- The address that the repository is cloned from. -/
  repoUri : String
  projectId : String
  repoId : String
  commit : String
  /-- Empty when the notification does not say. -/
  pushedBy : String
  /-- The branch without `refs/heads/`, when it is known. -/
  targetBranch : Option String
deriving DecidableEq, Repr

/-- The merge commit of a pull request: `push` holds that commit and the branch it goes into. -/
structure PullRequest where
  push : Push
  /-- The number of the pull request, below 2^64. -/
  number : Nat
  /-- Which update of the pull request this is, a signed 64-bit number; -1 when it is not said. -/
  iteration : Int
deriving DecidableEq, Repr

/-- What the names of branches start with among the names of refs. -/
def branchLead : List Char :=
  "refs/heads/".toList

/-- The name of a branch: a ref without the lead of branches. Tags and other refs keep their names. -/
def branchName (ref : String) : String :=
  match Text.dropLead? branchLead ref.toList with
  | some rest => String.ofList rest
  | none => ref

end BuildHooks
