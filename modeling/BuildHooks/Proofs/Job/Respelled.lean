import BuildHooks.Job.Codec
import BuildHooks.Proofs.Push.Respelled

/-! Jobs in any spelling, and with them all records that are written and read back. -/

namespace BuildHooks

namespace Job

/-- The branches may be left out where there are none, and the trigger where the job is polled. -/
def optional : Json.Members :=
  [("branches", .array []), ("trigger", .string "poll")]

theorem lawful_form : form.Lawful where
  agrees := by
    simp only [form, fields, List.forall_mem_cons, List.not_mem_nil, false_implies, implies_true,
      and_true]
    exact ⟨Json.Field.agrees_of Json.agrees_text, Json.Field.agrees_of Json.agrees_text,
      Json.Field.agrees_of (Json.agrees_list Json.agrees_text),
      Json.Field.agrees_of (Json.agrees_choice triggers)⟩
  fills := by
    simp only [form, fields, List.forall_mem_cons, List.not_mem_nil, false_implies, implies_true,
      and_true]
    refine ⟨?_, ?_, ?_, ?_⟩
    all_goals exact fun v fill h draft => Json.Field.fills_of (fun _ _ => rfl) h draft
  apart := by
    simp only [form, fields, List.pairwise_cons, List.forall_mem_cons, List.not_mem_nil, false_implies,
      implies_true, and_true, List.Pairwise.nil]
    refine ⟨⟨?_, ?_, ?_⟩, ⟨?_, ?_⟩, ?_⟩
    all_goals exact Json.Field.apart_of (fun _ _ => rfl) (fun _ _ => rfl) fun _ _ _ => rfl

/-- The members of a job are written in the order of its fields. -/
theorem map_fst_members (job : Job) : job.members.map Prod.fst = form.names :=
  rfl

theorem nodup_members (job : Job) : (job.members.map Prod.fst).Nodup := by
  rw [map_fst_members]
  decide

theorem ofJson_branches (branches : List String) :
    (Json.Slot.list .text).ofJson (.array (branches.map .string)) = .ok branches := by
  change (branches.map Json.string).mapM Json.Slot.text.ofJson = _
  induction branches with
  | nil => rfl
  | cons b branches ih =>
      rw [List.map_cons, List.mapM_cons, ih]
      rfl

theorem ofJson_trigger (trigger : Trigger) :
    (Json.Slot.choice triggers).ofJson (.string trigger.name) = .ok trigger := by
  cases trigger <;> rfl

theorem ofMembers_members (job : Job) : form.ofMembers job.members = .ok job := by
  have hfill : form.fill form.blank job.members =
      .ok ⟨some job.name, some job.repositoryUrl, some job.branches, some job.trigger⟩ := by
    refine Json.Form.fill_cons_eq_ok_iff.mpr (.inr ⟨_, _, rfl, rfl, rfl, ?_⟩)
    refine Json.Form.fill_cons_eq_ok_iff.mpr (.inr ⟨_, _, rfl, rfl, rfl, ?_⟩)
    refine Json.Form.fill_cons_eq_ok_iff.mpr (.inr ⟨_, _, rfl, rfl,
      Json.Field.of_ofJson (ofJson_branches job.branches), ?_⟩)
    exact Json.Form.fill_cons_eq_ok_iff.mpr (.inr ⟨_, _, rfl, rfl,
      Json.Field.of_ofJson (ofJson_trigger job.trigger), rfl⟩)
  rw [Json.Form.ofMembers, hfill]
  rfl

theorem defaults_optional : form.Defaults optional := by
  intro m hm draft d h
  simp only [optional, List.mem_cons, List.not_mem_nil, or_false] at hm
  rcases hm with rfl | rfl
  · refine Json.Form.finish_of_fill_singleton rfl rfl (fun draft hnew => ?_) h
    change draft.branches.isSome = false at hnew
    change Draft.finish _ = Draft.finish draft
    simp only [Draft.finish, Option.isNone_iff_eq_none.mp (Option.isSome_eq_false_iff.mp hnew)]
    rfl
  · refine Json.Form.finish_of_fill_singleton rfl rfl (fun draft hnew => ?_) h
    change draft.trigger.isSome = false at hnew
    change Draft.finish _ = Draft.finish draft
    simp only [Draft.finish, Option.isNone_iff_eq_none.mp (Option.isSome_eq_false_iff.mp hnew)]
    rfl

/-- A job is read off every text that spells its members. -/
theorem takes_respelled {job : Job} {ms : Json.Members}
    (h : Json.Respells form.names optional job.members ms) :
    Json.Takes form.read (.object ms) job :=
  lawful_form.takes_respelled rfl defaults_optional h (fun _ hm => List.mem_map_of_mem hm)
    (ofMembers_members job)

/-- Jobs are read off every text that lists spellings of their members. -/
theorem takes_list {jobs : List Job} {spellings : List Json.Members}
    (h : List.Forall₂ (fun ms job => Json.Respells form.names optional job.members ms) spellings jobs) :
    Json.Takes (Json.readList form.read) (.array (spellings.map .object)) jobs :=
  Json.takes_readList (List.forall₂_map_left_iff.mpr (h.imp fun _ _ hms => takes_respelled hms))

/-- Jobs are read off the text that they are written as. -/
theorem takes_listToJson (jobs : List Job) :
    Json.Takes (Json.readList form.read) (listToJson jobs) jobs := by
  have hsame : List.Forall₂ (fun ms job => Json.Respells form.names optional job.members ms)
      (jobs.map members) jobs :=
    List.forall₂_map_left_iff.mpr
      (List.forall₂_same.mpr fun job _ => .refl form.names optional job.members)
  have htakes := takes_list hsame
  rwa [List.map_map] at htakes

end Job

/-- Pushes, pull requests with numbers of 64 bits and lists of jobs are what their texts are read as.
They still are when the members of an object stand in another order, when members of other names with
any documents that can be written are put in between, within the levels that a text may nest, and when
members are left out that are what they are taken for then. No object has two members of one name. -/
theorem records_read_back :
    (∀ p : Push,
      Push.decode (Json.render p.toJson) = .ok p ∧ (p.members.map Prod.fst).Nodup ∧
        ∀ ms, Json.Respells Push.form.names Push.optional p.members ms →
          Push.decode (Json.render (.object ms)) = .ok p) ∧
    (∀ r : PullRequest, r.number < Text.wordEnd →
      -(Text.signedEnd : Int) ≤ r.iteration ∧ r.iteration < Text.signedEnd →
      PullRequest.decode (Json.render r.toJson) = .ok r ∧ (r.members.map Prod.fst).Nodup ∧
        ∀ ms, Json.Respells PullRequest.names Push.optional r.members ms →
          Json.depth (.object ms) ≤ Json.maxLevels →
          PullRequest.decode (Json.render (.object ms)) = .ok r) ∧
    ∀ jobs : List Job,
      Job.decodeList (Json.render (Job.listToJson jobs)) = .ok jobs ∧
        (∀ job ∈ jobs, (job.members.map Prod.fst).Nodup) ∧
        ∀ spellings : List Json.Members,
          List.Forall₂ (fun ms job => Json.Respells Job.form.names Job.optional job.members ms)
            spellings jobs →
          Job.decodeList (Json.render (.array (spellings.map .object))) = .ok jobs := by
  refine ⟨fun p => ⟨?_, p.nodup_members, fun ms hms => ?_⟩,
    fun r hnumber hiteration => ⟨?_, r.nodup_members, fun ms hms hdepth => ?_⟩,
    fun jobs => ⟨?_, fun job _ => job.nodup_members, fun spellings h => ?_⟩⟩
  · exact (Push.takes_respelled (.refl Push.form.names Push.optional p.members)).parseWith_render
  · exact (Push.takes_respelled hms).parseWith_render
  · exact (PullRequest.takes_respelled (.refl PullRequest.names Push.optional r.members) hnumber
      hiteration r.depth_members).parseWith_render
  · exact (PullRequest.takes_respelled hms hnumber hiteration hdepth).parseWith_render
  · exact (Job.takes_listToJson jobs).parseWith_render
  · exact (Job.takes_list h).parseWith_render

/-- The widest numbers of a pull request, its members backwards without the pusher, after an unknown one
that nests as deep as a text may and before the greatest binary number; and a job that is described by
two members only, beside an unknown one that nests deeper than any text that is kept. -/
theorem records_read_back_widest :
    PullRequest.decode (Json.render (.object
      [("links", Json.nested 126), ("weight", .number (.real ⟨false, 9007199254740991, 971⟩)),
       ("iterationId", Json.ofInt (-9223372036854775808)),
       ("pullRequestId", Json.ofNat 18446744073709551615), ("targetBranch", .string "dev"),
       ("commit", .string "1f"), ("repoId", .string "app"), ("projectId", .string "tools"),
       ("repoUri", .string "https://host/main/_git/app"),
       ("collectionUri", .string "https://host/main/")])) =
      .ok ⟨⟨"https://host/main/", "https://host/main/_git/app", "tools", "app", "1f", "", some "dev"⟩,
        18446744073709551615, -9223372036854775808⟩ ∧
    Job.decodeList (Json.render (.array [.object
      [("links", Json.nested 200), ("repositoryUrl", .string "https://host/main/_git/app"),
       ("name", .string "ci")]])) =
      .ok [⟨"ci", "https://host/main/_git/app", [], .poll⟩] := by
  have hlinks : ∀ n, Json.Stored (Json.nested n) := by
    intro n m hm
    rw [Json.numbers_nested] at hm
    cases hm
  have hweight : Json.Stored (.number (.real ⟨false, 9007199254740991, 971⟩)) := by
    intro m hm
    rw [List.mem_singleton.mp hm]
    exact ⟨by decide, by decide, by decide⟩
  constructor
  · refine (records_read_back.2.1 ⟨⟨"https://host/main/", "https://host/main/_git/app", "tools", "app",
      "1f", "", some "dev"⟩, 18446744073709551615, -9223372036854775808⟩ (by decide)
      (by decide)).2.2 _ ?_ ?_
    · refine ⟨[("collectionUri", .string "https://host/main/"),
        ("repoUri", .string "https://host/main/_git/app"), ("projectId", .string "tools"),
        ("repoId", .string "app"), ("commit", .string "1f"), ("targetBranch", .string "dev"),
        ("pullRequestId", Json.ofNat 18446744073709551615),
        ("iterationId", Json.ofInt (-9223372036854775808))], [("pushedBy", .string "")],
        [("weight", .number (.real ⟨false, 9007199254740991, 971⟩)), ("links", Json.nested 126)],
        ?_, fun _ hm => hm, ?_, (List.reverse_perm _).symm⟩
      · exact ((List.perm_append_singleton _ _).append_left [_, _, _, _, _]).symm
      · simp only [List.forall_mem_cons, List.not_mem_nil, false_implies, implies_true, and_true]
        exact ⟨⟨by decide, hweight⟩, by decide, hlinks 126⟩
    · simp only [Json.depth, Json.depthOfMembers, Json.depth_nested, Json.ofNat, Json.ofInt]
      decide
  · refine (records_read_back.2.2 [⟨"ci", "https://host/main/_git/app", [], .poll⟩]).2.2
      [[("links", Json.nested 200), ("repositoryUrl", .string "https://host/main/_git/app"),
        ("name", .string "ci")]] (.cons ?_ .nil)
    refine ⟨[("name", .string "ci"), ("repositoryUrl", .string "https://host/main/_git/app")],
      Job.optional, [("links", Json.nested 200)], .refl _, fun _ hm => hm, ?_, (List.reverse_perm _).symm⟩
    simp only [List.forall_mem_cons, List.not_mem_nil, false_implies, implies_true, and_true]
    exact ⟨by decide, hlinks 200⟩

end BuildHooks
