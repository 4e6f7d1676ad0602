import BuildHooks.Proofs.Json.Records
import BuildHooks.Push.Codec

/-! Pushes and pull requests in any spelling. A push is read in place. A pull request keeps the members
that are not its own as documents and makes its push of them afterwards, so their numbers may come back
as others than were written; the members of a push are strings, which do not. -/

namespace BuildHooks

namespace Push

/-- The pusher may be left out where it is empty. -/
def optional : Json.Members :=
  [("pushedBy", .string "")]

theorem lawful_form : form.Lawful where
  agrees := by
    simp only [form, fields, List.forall_mem_cons, List.not_mem_nil, false_implies, implies_true,
      and_true]
    exact ⟨Json.Field.agrees_of Json.agrees_text, Json.Field.agrees_of Json.agrees_text,
      Json.Field.agrees_of Json.agrees_text, Json.Field.agrees_of Json.agrees_text,
      Json.Field.agrees_of Json.agrees_text, Json.Field.agrees_of Json.agrees_text,
      Json.Field.agrees_of Json.agrees_optionalText⟩
  fills := by
    simp only [form, fields, List.forall_mem_cons, List.not_mem_nil, false_implies, implies_true,
      and_true]
    refine ⟨?_, ?_, ?_, ?_, ?_, ?_, ?_⟩
    all_goals exact fun v fill h draft => Json.Field.fills_of (fun _ _ => rfl) h draft
  apart := by
    simp only [form, fields, List.pairwise_cons, List.forall_mem_cons, List.not_mem_nil, false_implies,
      implies_true, and_true, List.Pairwise.nil]
    refine ⟨⟨?_, ?_, ?_, ?_, ?_, ?_⟩, ⟨?_, ?_, ?_, ?_, ?_⟩, ⟨?_, ?_, ?_, ?_⟩, ⟨?_, ?_, ?_⟩, ⟨?_, ?_⟩, ?_⟩
    all_goals exact Json.Field.apart_of (fun _ _ => rfl) (fun _ _ => rfl) fun _ _ _ => rfl

/-- The members of a push are written in the order of its fields. -/
theorem map_fst_members (p : Push) : p.members.map Prod.fst <+: form.names := by
  obtain ⟨collectionUri, repoUri, projectId, repoId, commit, pushedBy, targetBranch⟩ := p
  cases targetBranch with
  | none => exact ⟨["targetBranch"], rfl⟩
  | some b => exact ⟨[], rfl⟩

theorem name_mem_of_mem_members {p : Push} {m : String × Json} (hm : m ∈ p.members) :
    m.1 ∈ form.names :=
  p.map_fst_members.subset (List.mem_map_of_mem hm)

theorem nodup_members (p : Push) : (p.members.map Prod.fst).Nodup :=
  List.Nodup.sublist p.map_fst_members.sublist (by decide)

theorem eq_string_of_mem_members {p : Push} {m : String × Json} (hm : m ∈ p.members) :
    ∃ s, m.2 = .string s := by
  obtain ⟨collectionUri, repoUri, projectId, repoId, commit, pushedBy, targetBranch⟩ := p
  have hall : ∀ m ∈ members ⟨collectionUri, repoUri, projectId, repoId, commit, pushedBy, targetBranch⟩,
      ∃ s, m.2 = .string s := by
    unfold members
    cases targetBranch <;> simp
  exact hall m hm

theorem ofMembers_members (p : Push) : form.ofMembers p.members = .ok p := by
  obtain ⟨collectionUri, repoUri, projectId, repoId, commit, pushedBy, targetBranch⟩ := p
  cases targetBranch <;> rfl

theorem defaults_optional : form.Defaults optional := by
  intro m hm draft d h
  rw [List.mem_singleton.mp hm] at h
  refine Json.Form.finish_of_fill_singleton rfl rfl (fun draft hnew => ?_) h
  change draft.pushedBy.isSome = false at hnew
  change Draft.finish _ = Draft.finish draft
  simp only [Draft.finish, Option.isNone_iff_eq_none.mp (Option.isSome_eq_false_iff.mp hnew)]
  rfl

/-- A push is read off every text that spells its members. -/
theorem takes_respelled {p : Push} {ms : Json.Members}
    (h : Json.Respells form.names optional p.members ms) : Json.Takes form.read (.object ms) p :=
  lawful_form.takes_respelled rfl defaults_optional h (fun _ hm => name_mem_of_mem_members hm)
    (ofMembers_members p)

end Push

namespace PullRequest

/-- The names of the members that a pull request knows: its own and those of its push. -/
def names : List String :=
  form.names ++ Push.form.names

theorem lawful_form : form.Lawful where
  agrees := by
    simp only [form, List.forall_mem_cons, List.not_mem_nil, false_implies, implies_true, and_true]
    exact ⟨Json.Field.agrees_of Json.agrees_unsigned, Json.Field.agrees_of Json.agrees_signed⟩
  fills := by
    simp only [form, List.forall_mem_cons, List.not_mem_nil, false_implies, implies_true, and_true]
    refine ⟨?_, ?_⟩
    all_goals exact fun v fill h draft => Json.Field.fills_of (fun _ _ => rfl) h draft
  apart := by
    simp only [form, List.pairwise_cons, List.forall_mem_cons, List.not_mem_nil, false_implies,
      implies_true, and_true, List.Pairwise.nil]
    exact Json.Field.apart_of (fun _ _ => rfl) (fun _ _ => rfl) fun _ _ _ => rfl

/-- The members that were kept do not matter to a field of a pull request itself. -/
theorem field_of_mem {field : Json.Field Draft} (hfield : field ∈ form.fields) (others : Json.Members)
    (draft : Draft) :
    field.filled { draft with others := others } = field.filled draft ∧
      ∀ v fill, field.ofJson v = .ok fill →
        fill { draft with others := others } = { fill draft with others := others } := by
  revert field
  simp only [form, List.forall_mem_cons, List.not_mem_nil, false_implies, implies_true, and_true]
  refine ⟨⟨rfl, ?_⟩, rfl, ?_⟩
  all_goals
    intro v fill h
    obtain ⟨b, _, rfl⟩ := Json.Field.of_ofJson_eq_ok h
    rfl

/-- The members of a text that are not a pull request's own are kept as they are read. -/
theorem exists_absorbs {ms : Json.Members}
    (hothers : ∀ m ∈ ms, m.1 ∉ form.names → Json.Stored m.2 ∧ Json.depth m.2 ≤ Json.maxLevels - 1)
    {draft d : Draft} (hfill : form.fill draft ms = .ok d) :
    ∃ kept : Json.Members,
      List.Forall₂ (fun (o m : String × Json) => o.1 = m.1 ∧
          Json.Takes (fun steps => Json.readValue steps (Json.maxLevels - 1)) m.2 o.2)
        kept (ms.filter fun m => decide (m.1 ∉ form.names)) ∧
      ∀ others, form.Absorbs { draft with others := others } ms
        { d with others := kept.reverse ++ others } := by
  induction ms generalizing draft with
  | nil =>
      cases hfill
      exact ⟨[], .nil, fun others => .nil _⟩
  | cons m ms ih =>
      obtain ⟨name, v⟩ := m
      rw [List.forall_mem_cons] at hothers
      rcases Json.Form.fill_cons_eq_ok_iff.mp hfill with
        ⟨hfield, hrest⟩ | ⟨field, fill, hfield, hnew, hv, hrest⟩
      · have hname := Json.Form.field?_eq_none_iff.mp hfield
        obtain ⟨hstored, hdepth⟩ := hothers.1 hname
        obtain ⟨w, hw⟩ := Json.exists_takes hstored hdepth
        obtain ⟨kept, hkept, habsorbs⟩ := ih hothers.2 hrest
        refine ⟨(name, w) :: kept, ?_, fun others => ?_⟩
        · rw [List.filter_cons_of_pos (by simpa using hname)]
          exact .cons ⟨rfl, hw⟩ hkept
        · have hkeep : Json.Takes (fun steps => form.other steps name) v
              fun d => { d with others := (name, w) :: d.others } := by
            intro steps rest hsteps hrest
            change (Json.readValue steps (Json.maxLevels - 1) (Json.chars v ++ rest)).map _ = _
            have hread := hw steps rest hsteps hrest
            simp only at hread
            rw [hread]
            rfl
          rw [List.reverse_cons, List.append_assoc]
          exact .other hfield hkeep (habsorbs ((name, w) :: others))
      · obtain ⟨hmem, rfl⟩ := Json.Form.field?_eq_some hfield
        have hown : field.name ∈ form.names := List.mem_map_of_mem hmem
        obtain ⟨kept, hkept, habsorbs⟩ := ih hothers.2 hrest
        refine ⟨kept, ?_, fun others => ?_⟩
        · rw [List.filter_cons_of_neg (by simpa using hown)]
          exact hkept
        · obtain ⟨hfilled, hset⟩ := field_of_mem hmem others draft
          refine .known hfield (hfilled.trans hnew) (lawful_form.agrees field hmem v fill hv) ?_
          rw [hset v fill hv]
          exact habsorbs others

/-- A push has no member of the name of a pull request's own. -/
theorem notMem_names_of_mem_push {name : String} (h : name ∈ Push.form.names) :
    name ∉ form.names := by
  revert name
  decide

theorem fill_members {r : PullRequest} (hnumber : r.number < Text.wordEnd)
    (hiteration : -(Text.signedEnd : Int) ≤ r.iteration ∧ r.iteration < Text.signedEnd) :
    form.fill form.blank r.members = .ok ⟨some r.number, some r.iteration, []⟩ := by
  refine Json.Form.fill_append_eq_ok_iff.mpr ⟨form.blank, Json.Form.fill_others _ fun m hm =>
    notMem_names_of_mem_push (Push.name_mem_of_mem_members hm), ?_⟩
  refine Json.Form.fill_cons_eq_ok_iff.mpr (.inr ⟨_, _, rfl, rfl,
    Json.Field.of_ofJson (Json.unsigned_ofJson hnumber), ?_⟩)
  exact Json.Form.fill_cons_eq_ok_iff.mpr (.inr ⟨_, _, rfl, rfl,
    Json.Field.of_ofJson (Json.signed_ofJson hiteration), rfl⟩)

theorem nodup_members (r : PullRequest) : (r.members.map Prod.fst).Nodup := by
  rw [members, List.map_append]
  refine r.push.nodup_members.append (by decide : form.names.Nodup) ?_
  intro name hpush hown
  exact notMem_names_of_mem_push (r.push.map_fst_members.subset hpush) hown

theorem filter_members (r : PullRequest) :
    r.members.filter (fun m => decide (m.1 ∉ form.names)) = r.push.members := by
  rw [members, List.filter_append, List.filter_eq_self.mpr, List.filter_eq_nil_iff.mpr, List.append_nil]
  · simp [form, Json.Form.names, Json.Field.of]
  · intro m hm
    simpa using notMem_names_of_mem_push (Push.name_mem_of_mem_members hm)

theorem eq_string_of_mem_members {r : PullRequest} {m : String × Json} (hm : m ∈ r.members)
    (hname : m.1 ∉ form.names) : ∃ s, m.2 = .string s := by
  have hpush : m ∈ r.push.members := by
    rw [← r.filter_members]
    exact List.mem_filter.mpr ⟨hm, by simpa using hname⟩
  exact Push.eq_string_of_mem_members hpush

/-- All members of a pull request are strings and numbers, so its text nests no deeper than itself. -/
theorem depth_members (r : PullRequest) : Json.depth (.object r.members) ≤ Json.maxLevels := by
  have hflat : ∀ m ∈ r.members, Json.depth m.2 ≤ 0 := by
    intro m hm
    rw [members, List.mem_append] at hm
    rcases hm with hpush | hown
    · obtain ⟨s, hs⟩ := Push.eq_string_of_mem_members hpush
      rw [hs, Json.depth]
    · simp only [List.mem_cons, List.not_mem_nil, or_false] at hown
      rcases hown with rfl | rfl
      all_goals exact le_refl 0
  rw [Json.depth, Nat.le_zero.mp (Json.depthOfMembers_le_iff.mpr hflat)]
  decide

section

variable {r : PullRequest} {ms : Json.Members} (h : Json.Respells names Push.optional r.members ms)

include h

/-- What is kept for the push is stored, whether it is a member of the push or not. -/
theorem stored_of_respelled {m : String × Json} (hm : m ∈ ms) (hname : m.1 ∉ form.names) :
    Json.Stored m.2 := by
  rcases h.cases hm with hbase | hother
  · obtain ⟨s, hs⟩ := eq_string_of_mem_members hbase hname
    rw [hs]
    intro n hn
    cases hn
  · exact hother.2

/-- The members of the push among those that are kept are read as they were written. -/
theorem readsBack_of_respelled {m : String × Json} (hm : m ∈ ms) (hname : m.1 ∈ Push.form.names)
    (k : Nat) : Json.ReadsBack k m.2 := by
  rcases h.cases hm with hbase | hother
  · obtain ⟨s, hs⟩ := eq_string_of_mem_members hbase (notMem_names_of_mem_push hname)
    rw [hs]
    exact Json.readsBack (.string _ s)
  · exact absurd (List.mem_append_right form.names hname) hother.1

/-- What is kept for the push is a spelling of it. -/
theorem ofMembers_filter_respelled :
    Push.form.ofMembers (ms.filter fun m => decide (m.1 ∉ form.names)) = .ok r.push := by
  have hfiltered := h.filter (List.subset_append_right form.names Push.form.names)
    fun m => decide (m.1 ∉ form.names)
  rw [r.filter_members] at hfiltered
  exact Push.lawful_form.ofMembers_respelled Push.defaults_optional hfiltered
    (Push.ofMembers_members r.push)

/-- A pull request is read off every text that spells its members. -/
theorem takes_respelled (hnumber : r.number < Text.wordEnd)
    (hiteration : -(Text.signedEnd : Int) ≤ r.iteration ∧ r.iteration < Text.signedEnd)
    (hdepth : Json.depth (.object ms) ≤ Json.maxLevels) : Json.Takes form.read (.object ms) r := by
  obtain ⟨d, left, hfill, hleft, hrest⟩ :=
    lawful_form.fill_respelled (List.subset_append_left _ _) h (fill_members hnumber hiteration)
  -- The pusher is none of a pull request's own members, so leaving it out makes no difference yet.
  have hown : ∀ m ∈ left, m.1 ∉ form.names := by
    intro m hm
    rw [List.mem_singleton.mp (hleft m hm)]
    decide
  rw [Json.Form.fill_others d hown] at hrest
  cases hrest
  have hdepths := Json.depthOfMembers_le_iff.mp (Nat.le_of_succ_le_succ hdepth)
  obtain ⟨kept, hkept, habsorbs⟩ := exists_absorbs
    (fun m hm hname => ⟨stored_of_respelled h hm hname, hdepths m hm⟩) hfill
  have hreread : Push.form.ofMembers kept = .ok r.push := by
    have hback : ∀ m ∈ ms.filter fun m => decide (m.1 ∉ form.names), m.1 ∈ Push.form.names →
        Json.ReadsBack (Json.maxLevels - 1) m.2 :=
      fun m hm hname => readsBack_of_respelled h (List.mem_filter.mp hm).1 hname _
    have hpush := ofMembers_filter_respelled h
    unfold Json.Form.ofMembers at hpush ⊢
    rwa [Json.Form.fill_reread hkept hback]
  refine Json.Form.takes_read (habsorbs []) ?_
  change Draft.finish _ = _
  simp only [Draft.finish, List.append_nil, List.reverse_reverse, hreread]
  rfl

end

end PullRequest

end BuildHooks
