import BuildHooks.Proofs.Job.Catalog
import BuildHooks.Proofs.Push.Extract

/-! Which jobs a catalog triggers, and how. It goes through its jobs in their order and triggers those
that watch the repository and the branch, each of them once. A push is polled for or built as each job
says, and a pull request is built by the same jobs. So a catalog triggers what its parts do, one after
another, and a push to some branch triggers no job that a push without a branch would not. -/

namespace BuildHooks

/-- What is left of a ref when the lead of branches is taken off, once, or when it has none. -/
def Strips (ref name : String) : Prop :=
  ref = "refs/heads/" ++ name ∨ (¬"refs/heads/".toList <+: ref.toList ∧ name = ref)

theorem strips_iff {ref name : String} : Strips ref name ↔ branchName ref = name := by
  have hlead : ref = "refs/heads/" ++ name ↔ ref.toList = branchLead ++ name.toList := by
    rw [← String.toList_inj, String.toList_append]
    rfl
  rw [Strips, hlead]
  constructor
  · rintro (hname | ⟨hnone, rfl⟩)
    · rw [branchName_of_lead hname, String.ofList_toList]
    · exact branchName_eq_self hnone
  · rintro rfl
    by_cases hstarts : branchLead <+: ref.toList
    · obtain ⟨rest, hrest⟩ := hstarts
      left
      rw [branchName_of_lead hrest.symm, String.toList_ofList]
      exact hrest.symm
    · exact .inr ⟨hstarts, branchName_eq_self hstarts⟩

namespace Job

/-- The ways in which a job watches what an event says of its branch. -/
inductive WatchesBranch (job : Job) : Option String → Prop where
  /-- The event names no branch. -/
  | unknown : WatchesBranch job none
  /-- The job is configured with no branch. -/
  | unconfigured (branch : Option String) (h : job.branches = []) : WatchesBranch job branch
  | star (branch : Option String) (h : "*" ∈ job.branches) : WatchesBranch job branch
  | named (branch entry name : String) (hentry : entry ∈ job.branches) (hname : Strips entry name)
      (hbranch : Strips branch name) : WatchesBranch job (some branch)

/-- The job watches the repository and the branch of a push. -/
structure Watches (job : Job) (push : Push) : Prop where
  repository : repositoryKey job.repositoryUrl = repositoryKey push.repoUri
  branch : job.WatchesBranch push.targetBranch

theorem watchesBranch_iff {job : Job} {branch : Option String} :
    job.watchesBranch branch = true ↔ job.WatchesBranch branch := by
  constructor
  · intro h
    cases branch with
    | none => exact .unknown
    | some branch =>
        simp only [watchesBranch, Bool.or_eq_true, List.isEmpty_iff, List.any_eq_true,
          beq_iff_eq] at h
        rcases h with hempty | ⟨entry, hentry, hstar | hname⟩
        · exact .unconfigured _ hempty
        · exact .star _ (hstar ▸ hentry)
        · exact .named branch entry _ hentry (strips_iff.mpr hname) (strips_iff.mpr rfl)
  · intro h
    cases h with
    | unknown => rfl
    | unconfigured branch h =>
        cases branch <;> simp [watchesBranch, h]
    | star branch h =>
        cases branch with
        | none => rfl
        | some branch =>
            simp only [watchesBranch, Bool.or_eq_true, List.any_eq_true, beq_iff_eq]
            exact .inr ⟨"*", h, .inl rfl⟩
    | named branch entry name hentry hname hbranch =>
        simp only [watchesBranch, Bool.or_eq_true, List.any_eq_true, beq_iff_eq]
        refine .inr ⟨entry, hentry, .inr ?_⟩
        rw [strips_iff.mp hname, strips_iff.mp hbranch]

theorem concerns_iff {job : Job} {push : Push} : job.concerns push = true ↔ job.Watches push := by
  rw [concerns, Bool.and_eq_true, watchesRepository, beq_iff_eq, watchesBranch_iff]
  exact ⟨fun ⟨hrepository, hbranch⟩ => ⟨hrepository, hbranch⟩, fun h => ⟨h.repository, h.branch⟩⟩

/-- Whatever branch a job watches, it watches events without one. -/
theorem concerns_of_none {job : Job} {push other : Push} (h : job.concerns push = true)
    (hrepository : repositoryKey push.repoUri = repositoryKey other.repoUri)
    (hbranch : other.targetBranch = none) : job.concerns other = true := by
  rw [concerns_iff] at h ⊢
  refine ⟨h.repository.trans hrepository, ?_⟩
  rw [hbranch]
  exact .unknown

/-- How a job that is triggered by a push reacts to it. -/
def Trigger.kind : Trigger → Outcome.Kind
  | .poll => .pollingScheduled
  | .build => .buildScheduled

theorem outcome_eq (job : Job) : job.outcome = ⟨job.name, job.trigger.kind⟩ := by
  rw [outcome]
  cases job.trigger <;> rfl

/-- The outcomes are one for each job that watches the push, in the order of the jobs, and none for the
others. -/
inductive Reacts (push : Push) (kind : Job → Outcome.Kind) : List Job → List Outcome → Prop where
  | nil : Reacts push kind [] []
  | watches (job : Job) (jobs : List Job) (outcomes : List Outcome) (h : job.Watches push)
      (hrest : Reacts push kind jobs outcomes) :
      Reacts push kind (job :: jobs) (⟨job.name, kind job⟩ :: outcomes)
  | others (job : Job) (jobs : List Job) (outcomes : List Outcome) (h : ¬job.Watches push)
      (hrest : Reacts push kind jobs outcomes) : Reacts push kind (job :: jobs) outcomes

theorem reacts_filter (push : Push) (kind : Job → Outcome.Kind) (jobs : List Job) :
    Reacts push kind jobs
      ((jobs.filter fun job => job.concerns push).map fun job => ⟨job.name, kind job⟩) := by
  induction jobs with
  | nil => exact .nil
  | cons job jobs ih =>
      rw [List.filter_cons]
      by_cases h : job.concerns push = true
      · rw [if_pos h]
        exact .watches job jobs _ (concerns_iff.mp h) ih
      · rw [if_neg h]
        exact .others job jobs _ (fun hwatches => h (concerns_iff.mpr hwatches)) ih

end Job

namespace Catalog

theorem ofJobs_eq_ok_iff {jobs : List Job} {c : Catalog} : ofJobs jobs = .ok c ↔ jobs = c.jobs := by
  unfold ofJobs
  split
  · next fault hfault =>
    constructor
    · intro h
      cases h
    · rintro rfl
      rw [c.sound] at hfault
      cases hfault
  · next hnone =>
    constructor
    · intro h
      cases h
      rfl
    · rintro rfl
      rfl

/-- Every part of the jobs of a catalog is a catalog. -/
theorem exists_ofJobs {c : Catalog} {jobs : List Job} (h : jobs.Sublist c.jobs) :
    ∃ part, ofJobs jobs = .ok part := by
  obtain ⟨hfilled, hnodup⟩ := Job.firstFault?_eq_none_iff.mp c.sound
  have hsound : Job.firstFault? [] jobs = none :=
    Job.firstFault?_eq_none_iff.mpr
      ⟨fun job hjob => hfilled job (h.subset hjob), hnodup.sublist (h.map Job.name)⟩
  exact ⟨⟨jobs, hsound⟩, ofJobs_eq_ok_iff.mpr rfl⟩

theorem concerned_append {c first second : Catalog} (h : c.jobs = first.jobs ++ second.jobs)
    (push : Push) : c.concerned push = first.concerned push ++ second.concerned push := by
  rw [concerned, h, List.filter_append]
  rfl

theorem outcomes_append {c first second : Catalog} (h : c.jobs = first.jobs ++ second.jobs)
    (call : Call) : c.outcomes call = first.outcomes call ++ second.outcomes call := by
  cases call with
  | push push => rw [outcomes, concerned_append h, List.map_append]; rfl
  | pullRequest r => rw [outcomes, concerned_append h, List.map_append]; rfl

/-- What a catalog answers to whatever it is asked. -/
structure Selects (c : Catalog) : Prop where
  /-- The catalog is what its jobs, and no others, make. -/
  accepted : ∀ jobs, ofJobs jobs = .ok c ↔ jobs = c.jobs
  replies : ∀ call, (c.scheduler.answer call).2 = .ok (c.outcomes call)
  pushes : ∀ push, Job.Reacts push (fun job => job.trigger.kind) c.jobs (c.outcomes (.push push))
  pullRequests : ∀ r : PullRequest,
    Job.Reacts r.push (fun _ => .buildScheduled) c.jobs (c.outcomes (.pullRequest r)) ∧
    (c.outcomes (.pullRequest r)).map Outcome.job = (c.outcomes (.push r.push)).map Outcome.job
  /-- No job is triggered twice. -/
  once : ∀ call, ((c.outcomes call).map Outcome.job).Nodup
  /-- A catalog that is cut in two triggers what its parts do. -/
  parts : ∀ jobs others, c.jobs = jobs ++ others →
    ∃ first second, ofJobs jobs = .ok first ∧ ofJobs others = .ok second ∧
      ∀ call, c.outcomes call = first.outcomes call ++ second.outcomes call
  /-- A branch only takes jobs away. -/
  narrowed : ∀ call other : Call,
    Job.repositoryKey call.pushed.repoUri = Job.repositoryKey other.pushed.repoUri →
    other.pushed.targetBranch = none →
    ((c.outcomes call).map Outcome.job).Sublist ((c.outcomes other).map Outcome.job)

theorem selects_watching (c : Catalog) : c.Selects where
  accepted := fun _ => ofJobs_eq_ok_iff
  replies := fun _ => rfl
  pushes := by
    intro push
    have houtcomes : c.outcomes (.push push) =
        (c.jobs.filter fun job => job.concerns push).map fun job => ⟨job.name, job.trigger.kind⟩ :=
      List.map_congr_left fun job _ => job.outcome_eq
    rw [houtcomes]
    exact Job.reacts_filter push _ c.jobs
  pullRequests := by
    intro r
    refine ⟨Job.reacts_filter r.push _ c.jobs, ?_⟩
    rw [map_job_outcomes, map_job_outcomes]
    rfl
  once := by
    intro call
    rw [map_job_outcomes]
    exact c.nodup_names.sublist (List.filter_sublist.map Job.name)
  parts := by
    intro jobs others h
    obtain ⟨first, hfirst⟩ := exists_ofJobs (h ▸ List.sublist_append_left jobs others)
    obtain ⟨second, hsecond⟩ := exists_ofJobs (h ▸ List.sublist_append_right jobs others)
    refine ⟨first, second, hfirst, hsecond, outcomes_append ?_⟩
    rw [h, ofJobs_eq_ok_iff.mp hfirst, ofJobs_eq_ok_iff.mp hsecond]
  narrowed := by
    intro call other hrepository hbranch
    rw [map_job_outcomes, map_job_outcomes]
    apply List.Sublist.map
    apply List.monotone_filter_right
    intro job hjob
    exact Job.concerns_of_none hjob hrepository hbranch

end Catalog

end BuildHooks
