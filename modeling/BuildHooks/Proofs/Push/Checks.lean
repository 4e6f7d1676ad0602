import BuildHooks.Proofs.Payload.Checks
import BuildHooks.Proofs.Push.Collection

/-! What pushes and pull requests are refused for. Each of the three readers makes its checks in one order,
whatever else is wrong with the payload: it accepts what passes them all, and of the others it reports the
first that fails. -/

namespace BuildHooks

open Payload

/-- The address of the repository in a notification. -/
def remoteRoute : Route :=
  .mk ["resource", "repository", "remoteUrl"]

/-- What a notification of pushed code is checked for. -/
def Push.notificationChecks : List Check :=
  [.field remoteRoute .text,
   .field (.mk ["resource", "repository", "name"]) .text,
   .field (.mk ["resource", "repository", "project", "name"]) .text,
   .field (.mk ["resource", "refUpdates", "0", "name"]) .text,
   .field (.mk ["resource", "refUpdates", "0", "newObjectId"]) .text,
   .field (.mk ["resource", "pushedBy", "displayName"]) .optionalText,
   .marked remoteRoute]

/-- What the flat form of a push is checked for. -/
def Push.flatChecks : List Check :=
  [.field (.mk ["collectionUri"]) .text,
   .field (.mk ["targetBranch"]) .optionalText,
   .field (.mk ["repoUri"]) .text,
   .field (.mk ["projectId"]) .text,
   .field (.mk ["repoId"]) .text,
   .field (.mk ["commit"]) .text,
   .field (.mk ["pushedBy"]) .optionalText]

/-- What a notification of a merge commit is checked for. -/
def PullRequest.notificationChecks : List Check :=
  [.field remoteRoute .text,
   .field (.mk ["resource", "repository", "name"]) .text,
   .field (.mk ["resource", "repository", "project", "name"]) .text,
   .field (.mk ["resource", "pullRequestId"]) .positive,
   .field (.mk ["resource", "lastMergeCommit", "commitId"]) .text,
   .field (.mk ["resource", "targetRefName"]) .text,
   .field (.mk ["resource", "createdBy", "displayName"]) .optionalText,
   .field (.mk ["resource", "iterationId"]) .optionalInteger,
   .marked remoteRoute]

variable {payload : Payload} {remote : String}

theorem remotePath_eq : remotePath = remoteRoute.path := by
  decide

/-- The address of the collection is cut from one that was read, so the mark is looked for there. -/
theorem tests_requiredCollection (h : payload.requiredText remotePath = .ok remote) (project : String) :
    Tests payload (.marked remoteRoute) (requiredCollection remote project) := by
  have hleads : Leads (.object payload) remoteRoute.names (.string remote) := by
    rw [← field?_path_eq_some_iff, ← remotePath_eq]
    exact (requiredText_eq_ok_iff.mp h).1
  by_cases hmark : repositoryMark <:+: remote.toList
  · obtain ⟨before, hfirst⟩ := Text.exists_firstAt hmark
    rw [requiredCollection_of_firstAt hfirst]
    exact tests_of_passes (.marked remoteRoute remote hleads hmark)
  · rw [requiredCollection_of_not_isInfix hmark, remotePath_eq]
    exact tests_of_fails (.unmarked remoteRoute remote hleads hmark)

theorem Push.checked_ofNotification (payload : Payload) :
    Checked payload notificationChecks (ofNotification payload) := by
  unfold notificationChecks ofNotification
  refine .bind (tests_requiredText payload _) fun repoUri hrepoUri => ?_
  refine .bind (tests_requiredText payload _) fun repoId _ => ?_
  refine .bind (tests_requiredText payload _) fun projectId _ => ?_
  refine .bind (tests_requiredText payload _) fun ref _ => ?_
  refine .bind (tests_requiredText payload _) fun commit _ => ?_
  refine .bind (tests_optionalText payload _) fun pushedBy _ => ?_
  exact .bind (tests_requiredCollection hrepoUri projectId) fun _ _ => checked_nil _

theorem Push.checked_ofFlat (payload : Payload) : Checked payload flatChecks (ofFlat payload) := by
  unfold flatChecks ofFlat
  refine .bind (tests_requiredText payload _) fun collection _ => ?_
  refine .bind (tests_optionalText payload _) fun branch _ => ?_
  refine .bind (tests_requiredText payload _) fun repoUri _ => ?_
  refine .bind (tests_requiredText payload _) fun projectId _ => ?_
  refine .bind (tests_requiredText payload _) fun repoId _ => ?_
  refine .bind (tests_requiredText payload _) fun commit _ => ?_
  exact .bind (tests_optionalText payload _) fun _ _ => checked_nil _

theorem PullRequest.checked_ofNotification (payload : Payload) :
    Checked payload notificationChecks (ofNotification payload) := by
  unfold notificationChecks ofNotification
  refine .bind (tests_requiredText payload _) fun repoUri hrepoUri => ?_
  refine .bind (tests_requiredText payload _) fun repoId _ => ?_
  refine .bind (tests_requiredText payload _) fun projectId _ => ?_
  refine .bind (tests_requiredPositive payload _) fun number _ => ?_
  refine .bind (tests_requiredText payload _) fun commit _ => ?_
  refine .bind (tests_requiredText payload _) fun target _ => ?_
  refine .bind (tests_optionalText payload _) fun createdBy _ => ?_
  refine .bind (tests_optionalInteger payload _) fun iteration _ => ?_
  exact .bind (tests_requiredCollection hrepoUri projectId) fun _ _ => checked_nil _

/-- Every payload is accepted by each reader that it passes the checks of, and refused by the others for the
first check that it fails. -/
theorem first_failing_check (payload : Payload) :
    Checked payload Push.notificationChecks (Push.ofNotification payload) ∧
    Checked payload Push.flatChecks (Push.ofFlat payload) ∧
    Checked payload PullRequest.notificationChecks (PullRequest.ofNotification payload) :=
  ⟨Push.checked_ofNotification payload, Push.checked_ofFlat payload,
    PullRequest.checked_ofNotification payload⟩

/-- The blank address is reported, though the project is missing and the repository is no text. -/
example : Push.ofFlat [("repoId", Json.ofNat 7), ("repoUri", .string " "),
    ("collectionUri", .string "https://host/")] =
    .error (.invalid "repoUri" "a non-empty string") := by
  rfl

end BuildHooks
