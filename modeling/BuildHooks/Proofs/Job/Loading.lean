import BuildHooks.Proofs.FirstWrong
import BuildHooks.Proofs.Job.Outcomes
import BuildHooks.Proofs.Job.Respelled
import BuildHooks.Proofs.Payload.Field
import BuildHooks.Proofs.Text.Utf8

/-! Which catalogs there are, and what comes of a file. Jobs make a catalog if each has a name of its own
and a repository; otherwise the first job in their order that does not is told, by the first thing that is
wrong in it. A file gives the catalog of the jobs that it lists, and otherwise the failure of the first
stage that fails, below which stands the same reason. -/

namespace BuildHooks

namespace Job

/-- All jobs are named and have repositories, and no two have one name. -/
structure Named (jobs : List Job) : Prop where
  names : ∀ job ∈ jobs, ∃ c ∈ job.name.toList, Text.isBlank c = false
  repositories : ∀ job ∈ jobs, ∃ c ∈ job.repositoryUrl.toList, Text.isBlank c = false
  distinct : jobs.Pairwise fun job other => job.name ≠ other.name

/-- What is said of a job in which something is wrong, after the jobs `earlier`. -/
inductive Wrong (earlier : List Job) (job : Job) : String → Prop where
  | blankName (hname : ∀ c ∈ job.name.toList, Text.isBlank c = true) :
      Wrong earlier job "job with a blank name"
  | blankRepository (hname : ∃ c ∈ job.name.toList, Text.isBlank c = false)
      (hurl : ∀ c ∈ job.repositoryUrl.toList, Text.isBlank c = true) :
      Wrong earlier job ("job '" ++ job.name ++ "' has a blank repositoryUrl")
  | repeated (hname : ∃ c ∈ job.name.toList, Text.isBlank c = false)
      (hurl : ∃ c ∈ job.repositoryUrl.toList, Text.isBlank c = false)
      (h : ∃ other ∈ earlier, other.name = job.name) :
      Wrong earlier job ("duplicate job '" ++ job.name ++ "'")

variable {taken : List String} {earlier jobs : List Job} {job : Job} {message : String}

theorem fault?_message_iff (htaken : ∀ name, name ∈ taken ↔ ∃ other ∈ earlier, other.name = name) :
    (fault? taken job).map Fault.message = some message ↔ Wrong earlier job message := by
  constructor
  · intro h
    unfold fault? at h
    split at h
    · next hname =>
      cases h
      exact .blankName (isAllBlank_iff.mp hname)
    · next hname =>
      rw [Bool.not_eq_true, isAllBlank_eq_false_iff] at hname
      split at h
      · next hurl =>
        cases h
        exact .blankRepository hname (isAllBlank_iff.mp hurl)
      · next hurl =>
        rw [Bool.not_eq_true, isAllBlank_eq_false_iff] at hurl
        split at h
        · next hmem =>
          cases h
          exact .repeated hname hurl ((htaken _).mp (List.contains_iff_mem.mp hmem))
        · cases h
  · intro h
    unfold fault?
    cases h with
    | blankName hname => rw [if_pos (isAllBlank_iff.mpr hname)]; rfl
    | blankRepository hname hurl =>
        rw [isAllBlank_eq_false_iff.mpr hname, if_neg Bool.false_ne_true,
          if_pos (isAllBlank_iff.mpr hurl)]
        rfl
    | repeated hname hurl hmem =>
        rw [isAllBlank_eq_false_iff.mpr hname, if_neg Bool.false_ne_true,
          isAllBlank_eq_false_iff.mpr hurl, if_neg Bool.false_ne_true,
          if_pos (List.contains_iff_mem.mpr ((htaken _).mpr hmem))]
        rfl

theorem mem_taken_cons_iff (job : Job)
    (htaken : ∀ name, name ∈ taken ↔ ∃ other ∈ earlier, other.name = name) (name : String) :
    name ∈ job.name :: taken ↔ ∃ other ∈ earlier ++ [job], other.name = name := by
  rw [List.mem_cons, htaken, or_comm, eq_comm]
  simp only [List.mem_append, List.mem_singleton, or_and_right, exists_or, exists_eq_left]

/-- The names that are taken are those of the jobs before, so the fault that is found is that of the first
job in which there is one. -/
theorem firstFault?_message_iff (htaken : ∀ name, name ∈ taken ↔ ∃ other ∈ earlier, other.name = name) :
    (firstFault? taken jobs).map Fault.message = some message ↔
      FirstWrong (fun before => Wrong (earlier ++ before)) jobs message := by
  induction jobs generalizing taken earlier with
  | nil =>
      rw [firstFault?]
      exact iff_of_false (by simp) not_firstWrong_nil
  | cons job jobs ih =>
      have hjob : ∀ m, (fault? taken job).map Fault.message = some m ↔ Wrong (earlier ++ []) job m := by
        intro m
        rw [List.append_nil]
        exact fault?_message_iff htaken
      rw [firstFault?]
      cases hfault : fault? taken job with
      | some fault =>
          rw [hfault] at hjob
          rw [firstWrong_iff_of_wrong ((hjob _).mp rfl)]
          exact hjob message
      | none =>
          have hright : ∀ m, ¬Wrong (earlier ++ []) job m := by
            intro m hm
            rw [← hjob m, hfault] at hm
            cases hm
          have hrest := ih (mem_taken_cons_iff job htaken)
          simp only [List.append_assoc, List.singleton_append] at hrest
          rw [firstWrong_iff_of_right hright]
          exact hrest

theorem named_iff : Named jobs ↔ firstFault? [] jobs = none := by
  rw [firstFault?_eq_none_iff, List.nodup_iff_pairwise_ne, List.pairwise_map]
  constructor
  · intro h
    refine ⟨fun job hjob => ⟨?_, ?_, List.not_mem_nil⟩, h.distinct⟩
    · exact isAllBlank_eq_false_iff.mpr (h.names job hjob)
    · exact isAllBlank_eq_false_iff.mpr (h.repositories job hjob)
  · rintro ⟨hjobs, hdistinct⟩
    refine ⟨fun job hjob => ?_, fun job hjob => ?_, hdistinct⟩
    · exact isAllBlank_eq_false_iff.mp (hjobs job hjob).1
    · exact isAllBlank_eq_false_iff.mp (hjobs job hjob).2.1

end Job

namespace Catalog

/-- What comes of the file called `path`: the jobs of its catalog, or the failure of the first stage that
fails. The file is given by its bytes or by the reason why they cannot be read. -/
inductive Loads (path : String) : Except String (List UInt8) → Except Failure (List Job) → Prop where
  | unreadable (reason : String) :
      Loads path (.error reason) (.error ⟨"reading job file " ++ path, [reason]⟩)
  | notText (bytes : List UInt8) (h : ∀ cs, bytes ≠ Text.Utf8.encode cs) :
      Loads path (.ok bytes)
        (.error ⟨"reading job file " ++ path, ["stream did not contain valid UTF-8"]⟩)
  | notJobs (text : String) (complaint : Json.Complaint)
      (h : Job.decodeList text = .error complaint) :
      Loads path (.ok (Text.Utf8.encode text.toList))
        (.error ⟨"parsing job file " ++ path, [complaint.message]⟩)
  | invalid (text : String) (jobs : List Job) (message : String) (h : Job.decodeList text = .ok jobs)
      (hwrong : FirstWrong Job.Wrong jobs message) :
      Loads path (.ok (Text.Utf8.encode text.toList))
        (.error ⟨"invalid job file " ++ path, [message]⟩)
  | loaded (text : String) (jobs : List Job) (h : Job.decodeList text = .ok jobs)
      (hnamed : Job.Named jobs) :
      Loads path (.ok (Text.Utf8.encode text.toList)) (.ok jobs)

variable {jobs : List Job} {message path : String}

theorem exists_ofJobs_iff : (∃ c, ofJobs jobs = .ok c) ↔ Job.Named jobs := by
  rw [Job.named_iff]
  constructor
  · rintro ⟨c, h⟩
    rw [ofJobs_eq_ok_iff.mp h]
    exact c.sound
  · intro h
    exact ⟨⟨jobs, h⟩, ofJobs_eq_ok_iff.mpr rfl⟩

theorem ofJobs_eq_error_iff {fault : Job.Fault} :
    ofJobs jobs = .error fault ↔ Job.firstFault? [] jobs = some fault := by
  unfold ofJobs
  split
  · next found hfound => rw [hfound, Except.error.injEq, Option.some.injEq]
  · next hnone => exact iff_of_false (fun h => by cases h) (fun h => by rw [hnone] at h; cases h)

theorem ofJobs_message_iff : (ofJobs jobs).mapError Job.Fault.message = .error message ↔
    FirstWrong Job.Wrong jobs message := by
  have hwrong := @Job.firstFault?_message_iff [] [] jobs message (by simp)
  simp only [List.nil_append] at hwrong
  rw [← hwrong, Option.map_eq_some_iff]
  cases hmade : ofJobs jobs with
  | ok c =>
      rw [ofJobs_eq_ok_iff.mp hmade, c.sound]
      exact iff_of_false (fun h => by cases h) (fun ⟨_, h, _⟩ => by cases h)
  | error fault =>
      rw [ofJobs_eq_error_iff.mp hmade]
      simp [Except.mapError]

/-- Once a text lists jobs, all that can go wrong is what is wrong in the jobs. -/
theorem load_of_decodeList {text : String} (h : Job.decodeList text = .ok jobs) (path : String) :
    (load (.ok (Text.Utf8.encode text.toList))).mapError (LoadFault.failure path) =
      (ofJobs jobs).mapError fun fault => ⟨"invalid job file " ++ path, [fault.message]⟩ := by
  rw [load, Text.Utf8.decode?_eq_some_iff.mpr rfl]
  simp only [String.ofList_toList, h]
  cases ofJobs jobs <;> rfl

/-- What comes of a file as its reader is told it: the jobs of the catalog, or the failure. -/
def told (path : String) (content : Except String (List UInt8)) : Except Failure (List Job) :=
  ((load content).mapError (LoadFault.failure path)).map Catalog.jobs

theorem told_of_decodeList {text : String} (h : Job.decodeList text = .ok jobs) (path : String) :
    told path (.ok (Text.Utf8.encode text.toList)) =
      ((ofJobs jobs).mapError fun fault => ⟨"invalid job file " ++ path, [fault.message]⟩).map
        Catalog.jobs := by
  rw [told, load_of_decodeList h]

/-- Every file is loaded as one of the stages says. -/
theorem loads_told (path : String) (content : Except String (List UInt8)) :
    Loads path content (told path content) := by
  cases content with
  | error reason => exact .unreadable reason
  | ok bytes =>
      cases hdecode : Text.Utf8.decode? bytes with
      | none =>
          rw [told, load, hdecode]
          refine .notText bytes fun cs hcs => ?_
          rw [Text.Utf8.decode?_eq_some_iff.mpr hcs] at hdecode
          cases hdecode
      | some cs =>
          obtain ⟨text, rfl⟩ : ∃ text : String, text.toList = cs := ⟨.ofList cs, String.toList_ofList⟩
          obtain rfl := Text.Utf8.decode?_eq_some_iff.mp hdecode
          cases hlist : Job.decodeList text with
          | error complaint =>
              rw [told, load, hdecode]
              simp only [String.ofList_toList, hlist]
              exact .notJobs text complaint hlist
          | ok jobs =>
              rw [told_of_decodeList hlist]
              cases hmade : ofJobs jobs with
              | ok c =>
                  obtain rfl := ofJobs_eq_ok_iff.mp hmade
                  exact .loaded text c.jobs hlist (exists_ofJobs_iff.mp ⟨c, hmade⟩)
              | error fault =>
                  refine .invalid text jobs fault.message hlist (ofJobs_message_iff.mp ?_)
                  rw [hmade]
                  rfl

theorem Loads.eq_told {content : Except String (List UInt8)} {outcome : Except Failure (List Job)}
    (h : Loads path content outcome) : told path content = outcome := by
  cases h with
  | unreadable reason => rfl
  | notText bytes h =>
      cases hdecode : Text.Utf8.decode? bytes with
      | none => rw [told, load, hdecode]; rfl
      | some cs => exact absurd (Text.Utf8.decode?_eq_some_iff.mp hdecode) (h cs)
  | notJobs text complaint h =>
      rw [told, load, Text.Utf8.decode?_eq_some_iff.mpr rfl]
      simp only [String.ofList_toList, h]
      rfl
  | invalid text jobs message h hwrong =>
      have hfault := ofJobs_message_iff.mpr hwrong
      rw [told_of_decodeList h]
      cases hmade : ofJobs jobs with
      | ok c =>
          rw [hmade] at hfault
          cases hfault
      | error fault =>
          rw [hmade] at hfault
          cases hfault
          rfl
  | loaded text jobs h hnamed =>
      obtain ⟨c, hmade⟩ := exists_ofJobs_iff.mpr hnamed
      rw [told_of_decodeList h, hmade, ofJobs_eq_ok_iff.mp hmade]
      rfl

/-- What becomes of jobs: as a list, and as what a file lists. -/
structure Made (jobs : List Job) : Prop where
  accepted : (∃ c, ofJobs jobs = .ok c) ↔ Job.Named jobs
  unchanged : ∀ c, ofJobs jobs = .ok c → c.jobs = jobs
  rejected : ∀ message, (ofJobs jobs).mapError Job.Fault.message = .error message ↔
    FirstWrong Job.Wrong jobs message
  /-- A file in which the jobs are written gives the same catalog, or a failure with the same root cause. -/
  stored : ∀ (path : String) (spellings : List Json.Members),
    List.Forall₂ (fun ms job => Json.Respells Job.form.names Job.optional job.members ms) spellings jobs →
    (load (.ok (Text.Utf8.encode (Json.render (.array (spellings.map .object))).toList))).mapError
        (LoadFault.failure path) =
      (ofJobs jobs).mapError fun fault => ⟨"invalid job file " ++ path, [fault.message]⟩

/-- Jobs that are named make a catalog, in memory as in a file; and of other jobs the first in which
something is wrong is told, as it is of every other file what the first stage that fails says. -/
theorem made_or_first_fault :
    (∀ jobs, Made jobs) ∧
    (∀ (jobs : List Job) (path : String),
      (load (.ok (Text.Utf8.encode (Json.render (Job.listToJson jobs)).toList))).mapError
          (LoadFault.failure path) =
        (ofJobs jobs).mapError fun fault => ⟨"invalid job file " ++ path, [fault.message]⟩) ∧
    ∀ (path : String) (content : Except String (List UInt8)) (outcome : Except Failure (List Job)),
      told path content = outcome ↔ Loads path content outcome := by
  refine ⟨fun jobs => ⟨exists_ofJobs_iff, ?_, fun _ => ofJobs_message_iff, ?_⟩, ?_, ?_⟩
  · intro c h
    exact (ofJobs_eq_ok_iff.mp h).symm
  · intro path spellings h
    exact load_of_decodeList (Job.takes_list h).parseWith_render path
  · intro jobs path
    exact load_of_decodeList (Job.takes_listToJson jobs).parseWith_render path
  · intro path content outcome
    constructor
    · rintro rfl
      exact loads_told path content
    · exact Loads.eq_told

end Catalog

end BuildHooks
