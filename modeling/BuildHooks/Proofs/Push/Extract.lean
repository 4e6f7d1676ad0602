import BuildHooks.Proofs.Event.Path
import BuildHooks.Proofs.Payload.Field
import BuildHooks.Push.Codec
import BuildHooks.Push.Extract

/-! What a push or a pull request that was read out of a payload owes to the fields of the payload. The
members of a push are a payload too, the flat form of the push. Read back it is the same push, but that
the collection ends in a slash and the branch is read like that of any flat form. -/

namespace BuildHooks

/-- The fields of a notification that a push is made of. -/
structure Push.Notified (payload : Payload) (ref : String) (pushedBy : Option String) (push : Push) :
    Prop where
  repoUri : payload.requiredText remotePath = .ok push.repoUri
  repoId : payload.requiredText "resource.repository.name" = .ok push.repoId
  projectId : payload.requiredText "resource.repository.project.name" = .ok push.projectId
  refField : payload.requiredText "resource.refUpdates.0.name" = .ok ref
  commit : payload.requiredText "resource.refUpdates.0.newObjectId" = .ok push.commit
  pushedByField : payload.optionalText "resource.pushedBy.displayName" = .ok pushedBy
  collectionUri : requiredCollection push.repoUri push.projectId = .ok push.collectionUri
  pushedBy : push.pushedBy = pushedBy.getD ""
  targetBranch : push.targetBranch = some (branchName ref)

theorem Push.notified_of_ofNotification {payload : Payload} {push : Push}
    (h : ofNotification payload = .ok push) : ∃ ref pushedBy, Notified payload ref pushedBy push := by
  unfold ofNotification at h
  obtain ⟨repoUri, hrepoUri, h⟩ := Except.bind_eq_ok.mp h
  obtain ⟨repoId, hrepoId, h⟩ := Except.bind_eq_ok.mp h
  obtain ⟨projectId, hprojectId, h⟩ := Except.bind_eq_ok.mp h
  obtain ⟨ref, href, h⟩ := Except.bind_eq_ok.mp h
  obtain ⟨commit, hcommit, h⟩ := Except.bind_eq_ok.mp h
  obtain ⟨pushedBy, hpushedBy, h⟩ := Except.bind_eq_ok.mp h
  obtain ⟨collectionUri, hcollectionUri, h⟩ := Except.bind_eq_ok.mp h
  cases h
  exact ⟨ref, pushedBy, hrepoUri, hrepoId, hprojectId, href, hcommit, hpushedBy, hcollectionUri, rfl,
    rfl⟩

/-- The fields of a notification that the merge commit of a pull request is made of. -/
structure PullRequest.Notified (payload : Payload) (target : String) (createdBy : Option String)
    (iteration : Option Int) (r : PullRequest) : Prop where
  repoUri : payload.requiredText remotePath = .ok r.push.repoUri
  repoId : payload.requiredText "resource.repository.name" = .ok r.push.repoId
  projectId : payload.requiredText "resource.repository.project.name" = .ok r.push.projectId
  number : payload.requiredPositive "resource.pullRequestId" = .ok r.number
  commit : payload.requiredText "resource.lastMergeCommit.commitId" = .ok r.push.commit
  targetField : payload.requiredText "resource.targetRefName" = .ok target
  createdByField : payload.optionalText "resource.createdBy.displayName" = .ok createdBy
  iterationField : payload.optionalInteger "resource.iterationId" = .ok iteration
  collectionUri : requiredCollection r.push.repoUri r.push.projectId = .ok r.push.collectionUri
  pushedBy : r.push.pushedBy = createdBy.getD ""
  targetBranch : r.push.targetBranch = some (branchName target)
  iteration : r.iteration = iteration.getD (-1)

theorem PullRequest.notified_of_ofNotification {payload : Payload} {r : PullRequest}
    (h : ofNotification payload = .ok r) :
    ∃ target createdBy iteration, Notified payload target createdBy iteration r := by
  unfold ofNotification at h
  obtain ⟨repoUri, hrepoUri, h⟩ := Except.bind_eq_ok.mp h
  obtain ⟨repoId, hrepoId, h⟩ := Except.bind_eq_ok.mp h
  obtain ⟨projectId, hprojectId, h⟩ := Except.bind_eq_ok.mp h
  obtain ⟨number, hnumber, h⟩ := Except.bind_eq_ok.mp h
  obtain ⟨commit, hcommit, h⟩ := Except.bind_eq_ok.mp h
  obtain ⟨target, htarget, h⟩ := Except.bind_eq_ok.mp h
  obtain ⟨createdBy, hcreatedBy, h⟩ := Except.bind_eq_ok.mp h
  obtain ⟨iteration, hiteration, h⟩ := Except.bind_eq_ok.mp h
  obtain ⟨collectionUri, hcollectionUri, h⟩ := Except.bind_eq_ok.mp h
  cases h
  exact ⟨target, createdBy, iteration, hrepoUri, hrepoId, hprojectId, hnumber, hcommit, htarget,
    hcreatedBy, hiteration, hcollectionUri, rfl, rfl, rfl⟩

/-- The number of a pull request is a positive number of its payload. -/
theorem PullRequest.requiredPositive_of_ofNotification {payload : Payload} {r : PullRequest}
    (h : ofNotification payload = .ok r) :
    payload.requiredPositive "resource.pullRequestId" = .ok r.number := by
  obtain ⟨_, _, _, hnotified⟩ := notified_of_ofNotification h
  exact hnotified.number

theorem branchName_of_lead {ref : String} {name : List Char} (h : ref.toList = branchLead ++ name) :
    branchName ref = String.ofList name := by
  rw [branchName, Text.dropLead?_eq_some_iff.mpr h]

theorem branchName_eq_self {ref : String} (h : ¬branchLead <+: ref.toList) :
    branchName ref = ref := by
  unfold branchName
  split
  · next rest hrest =>
    rw [Text.dropLead?_eq_some_iff] at hrest
    exact absurd ⟨rest, hrest.symm⟩ h
  · rfl

/-! ### The flat form of a push -/

theorem getLast?_withFinalSlash (cs : List Char) : (withFinalSlash cs).getLast? = some '/' := by
  unfold withFinalSlash
  split
  · assumption
  · exact List.getLast?_concat

theorem withFinalSlash_of_getLast? {cs : List Char} (h : cs.getLast? = some '/') :
    withFinalSlash cs = cs := by
  rw [withFinalSlash, if_pos h]

theorem getLast?_of_requiredCollection {remote project uri : String}
    (h : requiredCollection remote project = .ok uri) : uri.toList.getLast? = some '/' := by
  unfold requiredCollection at h
  split at h
  · next hcollection =>
    cases h
    obtain ⟨before, _, rfl⟩ := Option.map_eq_some_iff.mp hcollection
    rw [String.toList_ofList]
    exact getLast?_withFinalSlash _
  · cases h

/-- A text that ends in a slash is not blank. -/
theorem isAllBlank_of_getLast? {s : String} (h : s.toList.getLast? = some '/') :
    Text.isAllBlank s = false := by
  rw [Text.isAllBlank, List.all_eq_false]
  exact ⟨'/', List.mem_of_getLast? h, by decide⟩

namespace Push

/-- The texts that a push must have are not blank. -/
structure Filled (push : Push) : Prop where
  collectionUri : Text.isAllBlank push.collectionUri = false
  repoUri : Text.isAllBlank push.repoUri = false
  projectId : Text.isAllBlank push.projectId = false
  repoId : Text.isAllBlank push.repoId = false
  commit : Text.isAllBlank push.commit = false

/-- What is read out of the members of a push. -/
def reread (push : Push) : Push :=
  { push with
    collectionUri := String.ofList (withFinalSlash push.collectionUri.toList)
    targetBranch := (push.targetBranch.filter fun b => !Text.isAllBlank b).map branchName }

variable {push : Push}

theorem get?_members_targetBranch (push : Push) :
    Json.Members.get? push.members "targetBranch" = push.targetBranch.map .string := by
  obtain ⟨_, _, _, _, _, _, targetBranch⟩ := push
  cases targetBranch <;> rfl

theorem optionalText_targetBranch (push : Push) :
    Payload.optionalText push.members "targetBranch" = .ok push.targetBranch := by
  rw [Payload.optionalText_eq_ok_iff, Payload.field?_member _ (by decide), get?_members_targetBranch]
  cases push.targetBranch with
  | none => exact .inl ⟨rfl, .inl rfl⟩
  | some b => exact .inr ⟨b, rfl, rfl⟩

/-- The members of a push are accepted as its flat form if the texts that it must have are not blank. -/
theorem Filled.ofFlat_members (h : push.Filled) : ofFlat push.members = .ok push.reread := by
  have hrequired : ∀ {name s : String}, Text.split '.' name.toList = [name.toList] →
      Json.Members.get? push.members name = some (.string s) → Text.isAllBlank s = false →
      Payload.requiredText push.members name = .ok s := by
    intro name s hname hget hblank
    rw [Payload.requiredText_eq_ok_iff, Payload.field?_member _ hname]
    exact ⟨hget, hblank⟩
  have hpushedBy : Payload.optionalText push.members "pushedBy" = .ok (some push.pushedBy) := by
    rw [Payload.optionalText_eq_ok_iff, Payload.field?_member _ (by decide)]
    exact .inr ⟨push.pushedBy, rfl, rfl⟩
  unfold ofFlat
  refine Except.bind_eq_ok.mpr ⟨_, hrequired (by decide) rfl h.collectionUri, ?_⟩
  refine Except.bind_eq_ok.mpr ⟨_, optionalText_targetBranch push, ?_⟩
  refine Except.bind_eq_ok.mpr ⟨_, hrequired (by decide) rfl h.repoUri, ?_⟩
  refine Except.bind_eq_ok.mpr ⟨_, hrequired (by decide) rfl h.projectId, ?_⟩
  refine Except.bind_eq_ok.mpr ⟨_, hrequired (by decide) rfl h.repoId, ?_⟩
  refine Except.bind_eq_ok.mpr ⟨_, hrequired (by decide) rfl h.commit, ?_⟩
  exact Except.bind_eq_ok.mpr ⟨_, hpushedBy, rfl⟩

/-- The push of a notification has all its texts, and its collection ends in a slash. -/
theorem Notified.filled {payload : Payload} {ref : String} {pushedBy : Option String}
    (h : Notified payload ref pushedBy push) : push.Filled where
  collectionUri := isAllBlank_of_getLast? (getLast?_of_requiredCollection h.collectionUri)
  repoUri := (Payload.requiredText_eq_ok_iff.mp h.repoUri).2
  projectId := (Payload.requiredText_eq_ok_iff.mp h.projectId).2
  repoId := (Payload.requiredText_eq_ok_iff.mp h.repoId).2
  commit := (Payload.requiredText_eq_ok_iff.mp h.commit).2

/-- The flat form can tell this branch: it is not blank, and does not begin like the ref of a branch. -/
def TellsBranch (push : Push) : Prop :=
  ∀ b, push.targetBranch = some b → Text.isAllBlank b = false ∧ ¬branchLead <+: b.toList

theorem targetBranch_reread_of_blank {b : String} (hbranch : push.targetBranch = some b)
    (hblank : Text.isAllBlank b = true) : push.reread.targetBranch = none := by
  unfold reread
  rw [hbranch, Option.filter_some, hblank]
  rfl

theorem reread_eq {payload : Payload} {ref : String} {pushedBy : Option String}
    (h : Notified payload ref pushedBy push) :
    { push.reread with targetBranch := push.targetBranch } = push := by
  unfold reread
  rw [withFinalSlash_of_getLast? (getLast?_of_requiredCollection h.collectionUri),
    String.ofList_toList]

theorem TellsBranch.targetBranch_reread (h : push.TellsBranch) :
    push.reread.targetBranch = push.targetBranch := by
  unfold reread
  cases hbranch : push.targetBranch with
  | none => rfl
  | some b =>
      obtain ⟨hblank, hlead⟩ := h b hbranch
      simp [hblank, branchName_eq_self hlead]

end Push

end BuildHooks
