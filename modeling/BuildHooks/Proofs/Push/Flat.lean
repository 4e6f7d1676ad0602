import BuildHooks.Proofs.Push.Extract

/-! Which pushes are read back out of their own members. The reader asks for texts that are not blank,
puts a slash after the collection and takes the lead off the branch, or the whole branch if it is blank.
So it accepts the members of a push with all its texts, and gives the same push back exactly when there
was nothing for it to put or to take. -/

namespace BuildHooks

theorem withFinalSlash_eq_self_iff {cs : List Char} :
    withFinalSlash cs = cs ↔ cs.getLast? = some '/' := by
  constructor
  · intro h
    rw [← h]
    exact getLast?_withFinalSlash cs
  · exact withFinalSlash_of_getLast?

theorem branchName_eq_self_iff {ref : String} :
    branchName ref = ref ↔ ¬branchLead <+: ref.toList := by
  constructor
  · rintro h ⟨name, hname⟩
    rw [branchName_of_lead hname.symm] at h
    have hshorter : name = branchLead ++ name := by rw [hname, ← h, String.toList_ofList]
    have hlead : branchLead = [] := List.self_eq_append_left.mp hshorter
    revert hlead
    decide
  · exact branchName_eq_self

namespace Push

/-- All that a push says is told by its flat form: its texts are not blank, its collection ends in a
slash, and its branch, if it has one, is not blank and no ref of a branch. -/
structure Flat (push : Push) : Prop where
  repoUri : ∃ c ∈ push.repoUri.toList, Text.isBlank c = false
  projectId : ∃ c ∈ push.projectId.toList, Text.isBlank c = false
  repoId : ∃ c ∈ push.repoId.toList, Text.isBlank c = false
  commit : ∃ c ∈ push.commit.toList, Text.isBlank c = false
  collectionUri : push.collectionUri.toList.getLast? = some '/'
  targetBranch : ∀ b, push.targetBranch = some b →
    (∃ c ∈ b.toList, Text.isBlank c = false) ∧ ¬"refs/heads/".toList <+: b.toList

variable {push other : Push}

/-- A member of a push that is read as a required text is not blank. -/
theorem isAllBlank_of_requiredText_members {name s t : String}
    (hname : Text.split '.' name.toList = [name.toList])
    (hget : Json.Members.get? push.members name = some (.string s))
    (h : Payload.requiredText push.members name = .ok t) : Text.isAllBlank s = false := by
  obtain ⟨hfield, hblank⟩ := Payload.requiredText_eq_ok_iff.mp h
  rw [Payload.field?_member _ hname, hget] at hfield
  cases hfield
  exact hblank

theorem filled_of_ofFlat_members (h : ofFlat push.members = .ok other) : push.Filled := by
  unfold ofFlat at h
  obtain ⟨_, hcollectionUri, h⟩ := Except.bind_eq_ok.mp h
  obtain ⟨_, _, h⟩ := Except.bind_eq_ok.mp h
  obtain ⟨_, hrepoUri, h⟩ := Except.bind_eq_ok.mp h
  obtain ⟨_, hprojectId, h⟩ := Except.bind_eq_ok.mp h
  obtain ⟨_, hrepoId, h⟩ := Except.bind_eq_ok.mp h
  obtain ⟨_, hcommit, _⟩ := Except.bind_eq_ok.mp h
  exact ⟨isAllBlank_of_requiredText_members (by decide) rfl hcollectionUri,
    isAllBlank_of_requiredText_members (by decide) rfl hrepoUri,
    isAllBlank_of_requiredText_members (by decide) rfl hprojectId,
    isAllBlank_of_requiredText_members (by decide) rfl hrepoId,
    isAllBlank_of_requiredText_members (by decide) rfl hcommit⟩

/-- The members of a push are accepted exactly if none of its texts is blank, and `Push.reread` is what
is read. -/
theorem ofFlat_members_eq_ok_iff :
    ofFlat push.members = .ok other ↔ push.Filled ∧ push.reread = other := by
  constructor
  · intro h
    have hfilled := filled_of_ofFlat_members h
    rw [hfilled.ofFlat_members] at h
    cases h
    exact ⟨hfilled, rfl⟩
  · rintro ⟨hfilled, rfl⟩
    exact hfilled.ofFlat_members

theorem targetBranch_reread_eq_iff :
    push.reread.targetBranch = push.targetBranch ↔ push.TellsBranch := by
  constructor
  · intro h b hbranch
    cases hblank : Text.isAllBlank b with
    | true =>
        rw [targetBranch_reread_of_blank hbranch hblank, hbranch] at h
        cases h
    | false =>
        have hname : push.reread.targetBranch = some (branchName b) := by
          simp [reread, hbranch, hblank]
        rw [hname, hbranch] at h
        exact ⟨rfl, branchName_eq_self_iff.mp (Option.some.inj h)⟩
  · exact TellsBranch.targetBranch_reread

theorem reread_eq_self_iff :
    push.reread = push ↔ push.collectionUri.toList.getLast? = some '/' ∧ push.TellsBranch := by
  rw [← targetBranch_reread_eq_iff, ← withFinalSlash_eq_self_iff]
  constructor
  · intro h
    refine ⟨?_, congrArg targetBranch h⟩
    have hcollection := congrArg collectionUri h
    rw [← String.toList_inj] at hcollection
    rwa [reread, String.toList_ofList] at hcollection
  · rintro ⟨hcollection, hbranch⟩
    calc
      push.reread = { push with
          collectionUri := push.reread.collectionUri
          targetBranch := push.reread.targetBranch } := rfl
      _ = push := by rw [hbranch, reread, hcollection, String.ofList_toList]

theorem flat_iff : push.Flat ↔ push.Filled ∧ push.reread = push := by
  rw [reread_eq_self_iff]
  constructor
  · intro h
    refine ⟨?_, h.collectionUri, fun b hbranch => ?_⟩
    · exact {
        collectionUri := isAllBlank_of_getLast? h.collectionUri
        repoUri := isAllBlank_eq_false_iff.mpr h.repoUri
        projectId := isAllBlank_eq_false_iff.mpr h.projectId
        repoId := isAllBlank_eq_false_iff.mpr h.repoId
        commit := isAllBlank_eq_false_iff.mpr h.commit }
    · obtain ⟨hfilled, hlead⟩ := h.targetBranch b hbranch
      exact ⟨isAllBlank_eq_false_iff.mpr hfilled, hlead⟩
  · rintro ⟨hfilled, hcollection, htells⟩
    refine ⟨isAllBlank_eq_false_iff.mp hfilled.repoUri, isAllBlank_eq_false_iff.mp hfilled.projectId,
      isAllBlank_eq_false_iff.mp hfilled.repoId, isAllBlank_eq_false_iff.mp hfilled.commit, hcollection,
      fun b hbranch => ?_⟩
    obtain ⟨hblank, hlead⟩ := htells b hbranch
    exact ⟨isAllBlank_eq_false_iff.mp hblank, hlead⟩

/-- A push is read back out of its own members exactly if they tell all of it. Else they are refused, or
another push is read. -/
theorem read_back_iff_flat (push : Push) :
    (ofFlat push.members = .ok push ↔ push.Flat) ∧
    (¬push.Flat → (∃ rejection, ofFlat push.members = .error rejection) ∨
      ofFlat push.members = .ok push.reread ∧ push.reread ≠ push) := by
  refine ⟨by rw [ofFlat_members_eq_ok_iff, flat_iff], fun hnot => ?_⟩
  cases hread : ofFlat push.members with
  | error rejection => exact .inl ⟨rejection, rfl⟩
  | ok other =>
      obtain ⟨hfilled, rfl⟩ := ofFlat_members_eq_ok_iff.mp hread
      exact .inr ⟨rfl, fun hsame => hnot (flat_iff.mpr ⟨hfilled, hsame⟩)⟩

end Push

end BuildHooks
