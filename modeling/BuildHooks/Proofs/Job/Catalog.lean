import Mathlib.Data.List.Nodup
import BuildHooks.Job.Catalog

/-! What a catalog of jobs triggers. No two of its jobs have the same name, so the name in an outcome says
which job was triggered, and a call triggers exactly the jobs that the push in it concerns. -/

namespace BuildHooks

namespace Job

theorem fault?_eq_none_iff {taken : List String} {job : Job} :
    fault? taken job = none ↔ Text.isAllBlank job.name = false ∧
      Text.isAllBlank job.repositoryUrl = false ∧ job.name ∉ taken := by
  unfold fault?
  split
  · next hname => simp [hname]
  · next hname =>
    split
    · next hurl => simp [hurl]
    · next hurl =>
      split
      · next htaken => simp [List.contains_iff_mem.mp htaken]
      · next htaken =>
        have hnot : job.name ∉ taken := fun h => htaken (List.contains_iff_mem.mpr h)
        simp [hname, hurl, hnot]

/-- Nothing is wrong with jobs that are named and have repositories, if no name is taken before. -/
theorem firstFault?_eq_none_iff {taken : List String} {jobs : List Job} :
    firstFault? taken jobs = none ↔
      (∀ job ∈ jobs, Text.isAllBlank job.name = false ∧ Text.isAllBlank job.repositoryUrl = false ∧
        job.name ∉ taken) ∧ (jobs.map Job.name).Nodup := by
  induction jobs generalizing taken with
  | nil => simp [firstFault?]
  | cons job jobs ih =>
      have hcons : firstFault? taken (job :: jobs) = none ↔
          fault? taken job = none ∧ firstFault? (job.name :: taken) jobs = none := by
        rw [firstFault?]
        cases fault? taken job <;> simp
      rw [hcons, ih, fault?_eq_none_iff, List.forall_mem_cons, List.map_cons, List.nodup_cons]
      constructor
      · rintro ⟨hjob, hjobs, hnodup⟩
        refine ⟨⟨hjob, fun other hother => ?_⟩, fun hmem => ?_, hnodup⟩
        · obtain ⟨hname, hurl, hfree⟩ := hjobs other hother
          exact ⟨hname, hurl, fun h => hfree (List.mem_cons_of_mem _ h)⟩
        · obtain ⟨other, hother, heq⟩ := List.mem_map.mp hmem
          exact (hjobs other hother).2.2 (heq ▸ List.mem_cons_self)
      · rintro ⟨⟨hjob, hjobs⟩, hnew, hnodup⟩
        refine ⟨hjob, fun other hother => ?_, hnodup⟩
        obtain ⟨hname, hurl, hfree⟩ := hjobs other hother
        refine ⟨hname, hurl, fun h => ?_⟩
        rcases List.mem_cons.mp h with heq | h
        · exact hnew (heq ▸ List.mem_map_of_mem hother)
        · exact hfree h

/-- A job that watches one branch watches it under its name and under its ref. -/
theorem watchesBranch_of_branches {job : Job} {b : String} (hbranches : job.branches = [b])
    (hstar : b ≠ "*") (branch : String) :
    job.watchesBranch (some branch) = true ↔ branchName b = branchName branch := by
  simp [watchesBranch, hbranches, hstar]

end Job

/-- The push that a call is about; of a pull request, that of its merge commit. -/
def Call.pushed : Call → Push
  | .push p => p
  | .pullRequest r => r.push

namespace Catalog

theorem nodup_names (c : Catalog) : (c.jobs.map Job.name).Nodup :=
  (Job.firstFault?_eq_none_iff.mp c.sound).2

theorem map_job_outcomes (c : Catalog) (call : Call) :
    (c.outcomes call).map Outcome.job = (c.concerned call.pushed).map Job.name := by
  have hjob : ∀ job : Job, job.outcome.job = job.name := by
    intro job
    unfold Job.outcome
    cases job.trigger <;> rfl
  cases call with
  | push push =>
      unfold outcomes
      rw [List.map_map]
      exact List.map_congr_left fun job _ => hjob job
  | pullRequest r =>
      unfold outcomes
      rw [List.map_map]
      rfl

/-- A call triggers a job of the catalog exactly if the push in it concerns the job. -/
theorem triggered_iff {c : Catalog} {job : Job} (hjob : job ∈ c.jobs) (call : Call) :
    (∃ o ∈ c.outcomes call, o.job = job.name) ↔ job.concerns call.pushed = true := by
  rw [← List.mem_map, map_job_outcomes, List.mem_map]
  constructor
  · rintro ⟨other, hother, hname⟩
    obtain ⟨hmem, hconcerns⟩ := List.mem_filter.mp hother
    rwa [← List.inj_on_of_nodup_map c.nodup_names hmem hjob hname]
  · intro hconcerns
    exact ⟨job, List.mem_filter.mpr ⟨hjob, hconcerns⟩, rfl⟩

end Catalog

end BuildHooks
