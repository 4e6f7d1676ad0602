import BuildHooks.Proofs.Dispatch.Digest
import BuildHooks.Proofs.Job.Catalog

/-! Which jobs a notification triggers. The lead of branches is taken off a ref when a push is read out of
the notification, and off the branch again when a job is asked whether it watches it; off the branch that
the job is configured with it is taken once. So a job watches the branch that a ref names, as long as the
branch itself is not called like a ref. -/

namespace BuildHooks.Dispatcher

open Event Dispatch

/-- The request is a notification that is accepted. It names this ref and is handed on in this call. -/
inductive Notifies (root path body ref : String) : Call → Prop where
  | codePushed (payload : Payload) (push : Push) (hpath : Leads root path gitCodePushed)
      (hbody : Payload.parse body = .ok payload) (hpush : Push.ofNotification payload = .ok push)
      (href : payload.field? "resource.refUpdates.0.name" = some (.string ref)) :
      Notifies root path body ref (.push push)
  | mergeCommit (payload : Payload) (r : PullRequest)
      (hpath : Leads root path pullRequestMergeCommitCreated)
      (hbody : Payload.parse body = .ok payload) (hr : PullRequest.ofNotification payload = .ok r)
      (href : payload.field? "resource.targetRefName" = some (.string ref)) :
      Notifies root path body ref (.pullRequest r)

/-- A job of the catalog reacts to what the request asks the catalog for. -/
def Triggers (c : Catalog) (root path body : String) (job : Job) : Prop :=
  ∃ call ∈ (((ofDefault root).dispatch path body).run c.scheduler.answer).2.calls,
    ∃ outcomes, (c.scheduler.answer call).2 = .ok outcomes ∧ ∃ o ∈ outcomes, o.job = job.name

variable {c : Catalog} {job : Job} {root path body ref b : String} {call : Call}

theorem Notifies.calls (h : Notifies root path body ref call)
    (answer : Call → List Log.Record × Reply) :
    (((ofDefault root).dispatch path body).run answer).2.calls = [call] := by
  cases h with
  | codePushed payload push hpath hbody hpush href =>
      exact calls_of_notification answer hpush hbody hpath
  | mergeCommit payload r hpath hbody hr href =>
      exact (served_of_asks answer (.pullRequest payload r hpath hbody hr)).2

theorem Notifies.targetBranch (h : Notifies root path body ref call) :
    call.pushed.targetBranch = some (branchName ref) := by
  have heq : ∀ {payload : Payload} {path s : String}, payload.requiredText path = .ok s →
      payload.field? path = some (.string ref) → s = ref := by
    intro payload path s hs href
    have hfield := (Payload.requiredText_eq_ok_iff.mp hs).1
    rw [href] at hfield
    cases hfield
    rfl
  cases h with
  | codePushed payload push hpath hbody hpush href =>
      obtain ⟨s, _, hnotified⟩ := Push.notified_of_ofNotification hpush
      rw [← heq hnotified.refField href]
      exact hnotified.targetBranch
  | mergeCommit payload r hpath hbody hr href =>
      obtain ⟨s, _, _, hnotified⟩ := PullRequest.notified_of_ofNotification hr
      rw [← heq hnotified.targetField href]
      exact hnotified.targetBranch

theorem triggers_iff_concerns (hjob : job ∈ c.jobs) (h : Notifies root path body ref call) :
    Triggers c root path body job ↔ job.concerns call.pushed = true := by
  have hanswer : ∀ call, (c.scheduler.answer call).2 = .ok (c.outcomes call) := fun _ => rfl
  unfold Triggers
  rw [h.calls, ← Catalog.triggered_iff hjob]
  constructor
  · rintro ⟨asked, hasked, outcomes, houtcomes, htriggered⟩
    cases List.mem_singleton.mp hasked
    rw [hanswer] at houtcomes
    cases houtcomes
    exact htriggered
  · intro htriggered
    exact ⟨call, List.mem_singleton_self _, _, hanswer call, htriggered⟩

/-- A job with one branch is triggered by a ref exactly if the branch, taken as a ref, has the name that
is left of the ref when the lead of branches is taken off twice. -/
theorem triggers_iff (hjob : job ∈ c.jobs) (hbranches : job.branches = [b]) (hstar : b ≠ "*")
    (h : Notifies root path body ref call)
    (hrepository : job.watchesRepository call.pushed.repoUri = true) :
    (Triggers c root path body job ↔ branchName b = branchName (branchName ref)) ∧
    (¬branchLead <+: (branchName ref).toList →
      (Triggers c root path body job ↔ branchName b = branchName ref)) := by
  have hiff : Triggers c root path body job ↔ branchName b = branchName (branchName ref) := by
    rw [triggers_iff_concerns hjob h, Job.concerns, hrepository, Bool.true_and, h.targetBranch]
    exact Job.watchesBranch_of_branches hbranches hstar (branchName ref)
  refine ⟨hiff, fun hlead => ?_⟩
  rwa [branchName_eq_self hlead] at hiff

/-- A job that watches one branch of the repository that `pushNotification` is about. -/
def appJob (branch : String) : Job :=
  ⟨"ci", "https://host/main/_git/app", [branch], .poll⟩

def appCatalog (branch : String) : Catalog where
  jobs := [appJob branch]
  sound := by
    have hname : Text.isAllBlank "ci" = false := by decide
    have hurl : Text.isAllBlank "https://host/main/_git/app" = false := by decide
    rw [Job.firstFault?_eq_none_iff]
    exact ⟨List.forall_mem_singleton.mpr ⟨hname, hurl, List.not_mem_nil⟩, List.nodup_singleton _⟩

theorem mem_appCatalog (branch : String) : appJob branch ∈ (appCatalog branch).jobs :=
  List.mem_singleton_self _

theorem notifies_pushNotification {branch : String} (hblank : Text.isAllBlank ref = false)
    (hbranch : branchName ref = branch) :
    Notifies "team-events" "/team-events/gitCodePushed" (Payload.text (pushNotification ref)) ref
      (.push (appPush (some branch))) :=
  .codePushed _ _ leads_gitCodePushed (parse_text_pushNotification ref)
    (ofNotification_pushNotification hblank hbranch) rfl

theorem triggers_iff_master :
    Notifies "team-events" "/team-events/gitCodePushed"
      (Payload.text (pushNotification "refs/heads/master")) "refs/heads/master"
      (.push (appPush (some "master"))) ∧
    (appJob "master").watchesRepository (appPush (some "master")).repoUri = true ∧
    ¬branchLead <+: (branchName "refs/heads/master").toList ∧
    Triggers (appCatalog "master") "team-events" "/team-events/gitCodePushed"
      (Payload.text (pushNotification "refs/heads/master")) (appJob "master") := by
  have hnotifies : Notifies "team-events" "/team-events/gitCodePushed"
      (Payload.text (pushNotification "refs/heads/master")) "refs/heads/master"
      (.push (appPush (some "master"))) :=
    notifies_pushNotification (by decide) (by decide)
  have hrepository : (appJob "master").watchesRepository (appPush (some "master")).repoUri = true := by
    decide
  have hlead : ¬branchLead <+: (branchName "refs/heads/master").toList := by decide
  have hiff :=
    (triggers_iff (mem_appCatalog "master") rfl (by decide) hnotifies hrepository).2 hlead
  exact ⟨hnotifies, hrepository, hlead, hiff.mpr (by decide)⟩

/-- A push to a branch that is called like a ref does not trigger the job that watches just this ref, but
triggers the one that watches another branch. -/
theorem exact_ref_missed :
    Notifies "team-events" "/team-events/gitCodePushed"
      (Payload.text (pushNotification "refs/heads/refs/heads/dev")) "refs/heads/refs/heads/dev"
      (.push (appPush (some "refs/heads/dev"))) ∧
    (appJob "refs/heads/refs/heads/dev").watchesRepository
      (appPush (some "refs/heads/dev")).repoUri = true ∧
    ¬Triggers (appCatalog "refs/heads/refs/heads/dev") "team-events" "/team-events/gitCodePushed"
      (Payload.text (pushNotification "refs/heads/refs/heads/dev"))
      (appJob "refs/heads/refs/heads/dev") ∧
    branchName "dev" ≠ branchName "refs/heads/refs/heads/dev" ∧
    Triggers (appCatalog "dev") "team-events" "/team-events/gitCodePushed"
      (Payload.text (pushNotification "refs/heads/refs/heads/dev")) (appJob "dev") := by
  have hnotifies : Notifies "team-events" "/team-events/gitCodePushed"
      (Payload.text (pushNotification "refs/heads/refs/heads/dev")) "refs/heads/refs/heads/dev"
      (.push (appPush (some "refs/heads/dev"))) :=
    notifies_pushNotification (by decide) (by decide)
  have hiff : ∀ b, Triggers (appCatalog b) "team-events" "/team-events/gitCodePushed"
      (Payload.text (pushNotification "refs/heads/refs/heads/dev")) (appJob b) ↔
        (appJob b).concerns (Call.push (appPush (some "refs/heads/dev"))).pushed = true := by
    intro b
    exact triggers_iff_concerns (mem_appCatalog b) hnotifies
  refine ⟨hnotifies, by decide, ?_, by decide, ?_⟩
  · rw [hiff]
    decide
  · rw [hiff]
    decide

end BuildHooks.Dispatcher
