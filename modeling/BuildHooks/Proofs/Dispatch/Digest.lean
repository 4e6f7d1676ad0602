import BuildHooks.Proofs.Dispatch.DefaultCalls

/-! A push that was read out of a notification can be posted again in its flat form, as the text of its
members. That form is always accepted, and what the scheduler is then asked is the same, except that the
flat form reads the branch anew. A blank branch is none there, and a branch whose own name begins like a
ref cannot be told from the ref of another branch. -/

namespace BuildHooks

theorem Push.parse_text_members (push : Push) :
    Payload.parse (Payload.text push.members) = .ok push.members := by
  refine Payload.parse_text (.object 126 _ ?_ fun m hm => ?_)
  · cases htarget : push.targetBranch <;> simp [members, htarget]
  · rcases List.mem_append.mp hm with hm | hm
    · simp only [List.mem_cons, List.not_mem_nil, or_false] at hm
      rcases hm with rfl | rfl | rfl | rfl | rfl | rfl <;> exact .string _ _
    · obtain ⟨b, _, rfl⟩ := Option.map_eq_some_iff.mp (Option.mem_toList.mp hm)
      exact .string _ _

namespace Dispatcher

open Event Dispatch

variable {root body path : String} {payload : Payload} {push : Push}

theorem calls_of_notification (answer : Call → List Log.Record × Reply)
    (hpush : Push.ofNotification payload = .ok push) (hbody : Payload.parse body = .ok payload)
    (hpath : Leads root path gitCodePushed) :
    (((ofDefault root).dispatch path body).run answer).2.calls = [.push push] :=
  (served_of_asks answer (.codePushed payload push hpath hbody hpush)).2

theorem calls_of_digest (answer : Call → List Log.Record × Reply) {flat : Push}
    (hflat : Push.ofFlat push.members = .ok flat) (hpath : Leads root path gitPush) :
    (((ofDefault root).dispatch path (Payload.text push.members)).run answer).2.calls =
      [.push flat] :=
  (served_of_asks answer (.push push.members flat hpath push.parse_text_members hflat)).2

/-- The flat form of a push from a notification is accepted and asks for the same push, up to a branch
that the flat form cannot tell. -/
theorem digest_read_back (hpush : Push.ofNotification payload = .ok push) :
    ∃ flat, Push.ofFlat push.members = .ok flat ∧
      { flat with targetBranch := push.targetBranch } = push ∧
      (∀ b, push.targetBranch = some b → Text.isAllBlank b = true → flat.targetBranch = none) ∧
      (push.TellsBranch → flat = push) ∧
      ∀ (answer : Call → List Log.Record × Reply) (root body path path' : String),
        Payload.parse body = .ok payload → Leads root path gitCodePushed →
        Leads root path' gitPush →
        (((ofDefault root).dispatch path body).run answer).2.calls = [.push push] ∧
        (((ofDefault root).dispatch path' (Payload.text push.members)).run answer).2.calls =
          [.push flat] := by
  obtain ⟨ref, pushedBy, hnotified⟩ := Push.notified_of_ofNotification hpush
  have hflat := hnotified.filled.ofFlat_members
  have hreread := Push.reread_eq hnotified
  refine ⟨push.reread, hflat, hreread, fun b => Push.targetBranch_reread_of_blank, ?_, ?_⟩
  · intro htells
    calc
      push.reread = { push.reread with targetBranch := push.reread.targetBranch } := rfl
      _ = { push.reread with targetBranch := push.targetBranch } := by rw [htells.targetBranch_reread]
      _ = push := hreread
  · intro answer root body path path' hbody hpath hpath'
    exact ⟨calls_of_notification answer hpush hbody hpath, calls_of_digest answer hflat hpath'⟩

/-- A notification of code pushed to a ref. -/
def pushNotification (ref : String) : Payload :=
  [("resource", .object
    [("repository", .object
      [("remoteUrl", .string "https://host/main/_git/app"), ("name", .string "app"),
       ("project", .object [("name", .string "app")])]),
     ("refUpdates", .array [.object [("name", .string ref), ("newObjectId", .string "1f")]])])]

/-- The push that `pushNotification` is about. -/
def appPush (branch : Option String) : Push where
  collectionUri := "https://host/main/"
  repoUri := "https://host/main/_git/app"
  projectId := "app"
  repoId := "app"
  commit := "1f"
  pushedBy := ""
  targetBranch := branch

theorem parse_text_pushNotification (ref : String) :
    Payload.parse (Payload.text (pushNotification ref)) = .ok (pushNotification ref) := by
  have hproject : Json.Fits Json.Number.Exact 124 (.object [("name", .string "app")]) :=
    .object _ _ (by simp) (by simp [Json.Fits.string])
  have hrepository : Json.Fits Json.Number.Exact 125 (.object
      [("remoteUrl", .string "https://host/main/_git/app"), ("name", .string "app"),
       ("project", .object [("name", .string "app")])]) :=
    .object _ _ (by simp) (by simp [Json.Fits.string, hproject])
  have hupdate : Json.Fits Json.Number.Exact 124
      (.object [("name", .string ref), ("newObjectId", .string "1f")]) :=
    .object _ _ (by simp) (by simp [Json.Fits.string])
  have hupdates : Json.Fits Json.Number.Exact 125
      (.array [.object [("name", .string ref), ("newObjectId", .string "1f")]]) :=
    .array _ _ (List.forall_mem_singleton.mpr hupdate)
  have hresource : ∀ m ∈ pushNotification ref, Json.Fits Json.Number.Exact 126 m.2 :=
    List.forall_mem_singleton.mpr (.object _ _ (by simp) (by simp [hrepository, hupdates]))
  exact Payload.parse_text (.object _ _ (List.nodup_singleton _) hresource)

theorem leads_gitCodePushed : Leads "team-events" "/team-events/gitCodePushed" gitCodePushed :=
  ⟨"gitCodePushed", ⟨by decide, .inl (by decide)⟩, rfl⟩

theorem leads_gitPush : Leads "team-events" "/team-events/gitPush" gitPush :=
  ⟨"gitPush", ⟨by decide, .inl (by decide)⟩, rfl⟩

/-- The notification of a push is accepted, whatever the ref is called. -/
theorem ofNotification_pushNotification {ref branch : String} (hblank : Text.isAllBlank ref = false)
    (hbranch : branchName ref = branch) :
    Push.ofNotification (pushNotification ref) = .ok (appPush (some branch)) := by
  subst hbranch
  have htext : ∀ {path s : String}, (pushNotification ref).field? path = some (.string s) →
      Text.isAllBlank s = false → (pushNotification ref).requiredText path = .ok s :=
    fun hfield hs => Payload.requiredText_eq_ok_iff.mpr ⟨hfield, hs⟩
  have hpushedBy : (pushNotification ref).optionalText "resource.pushedBy.displayName" = .ok none :=
    Payload.optionalText_eq_ok_iff.mpr (.inl ⟨rfl, .inl rfl⟩)
  unfold Push.ofNotification
  refine Except.bind_eq_ok.mpr ⟨"https://host/main/_git/app", htext rfl (by decide), ?_⟩
  refine Except.bind_eq_ok.mpr ⟨"app", htext rfl (by decide), ?_⟩
  refine Except.bind_eq_ok.mpr ⟨"app", htext rfl (by decide), ?_⟩
  refine Except.bind_eq_ok.mpr ⟨ref, htext rfl hblank, ?_⟩
  refine Except.bind_eq_ok.mpr ⟨"1f", htext rfl (by decide), ?_⟩
  refine Except.bind_eq_ok.mpr ⟨none, hpushedBy, ?_⟩
  exact Except.bind_eq_ok.mpr ⟨"https://host/main/", by decide, rfl⟩

theorem digest_read_back_master :
    Push.ofNotification (pushNotification "refs/heads/master") = .ok (appPush (some "master")) ∧
    (appPush (some "master")).TellsBranch ∧
    Push.ofFlat (appPush (some "master")).members = .ok (appPush (some "master")) ∧
    ∀ answer,
      (((ofDefault "team-events").dispatch "/team-events/gitCodePushed"
        (Payload.text (pushNotification "refs/heads/master"))).run answer).2.calls =
      (((ofDefault "team-events").dispatch "/team-events/gitPush"
        (Payload.text (appPush (some "master")).members)).run answer).2.calls := by
  have hpush : Push.ofNotification (pushNotification "refs/heads/master") =
      .ok (appPush (some "master")) := ofNotification_pushNotification (by decide) (by decide)
  have htells : (appPush (some "master")).TellsBranch := by
    intro b hb
    cases hb
    exact ⟨by decide, by decide⟩
  obtain ⟨flat, hflat, _, _, hsame, hcalls⟩ := digest_read_back hpush
  have heq := hsame htells
  subst heq
  refine ⟨hpush, htells, hflat, fun answer => ?_⟩
  obtain ⟨hnotified, hposted⟩ := hcalls answer _ _ _ _
    (parse_text_pushNotification "refs/heads/master") leads_gitCodePushed leads_gitPush
  rw [hnotified, hposted]

/-- What is asked for a notification and for the digest of its push, where these are not the same. -/
structure AsksOtherwise (ref : String) (push flat : Push) : Prop where
  accepted : Push.ofNotification (pushNotification ref) = .ok push
  digested : Push.ofFlat push.members = .ok flat
  differ : flat ≠ push
  notified : ∀ answer, (((ofDefault "team-events").dispatch "/team-events/gitCodePushed"
    (Payload.text (pushNotification ref))).run answer).2.calls = [.push push]
  posted : ∀ answer, (((ofDefault "team-events").dispatch "/team-events/gitPush"
    (Payload.text push.members)).run answer).2.calls = [.push flat]

/-- A blank branch is lost in the digest, and a branch that is called like a ref becomes another. -/
theorem digest_changes_branch :
    AsksOtherwise "refs/heads/" (appPush (some "")) (appPush none) ∧
    AsksOtherwise "refs/heads/refs/heads/dev" (appPush (some "refs/heads/dev"))
      (appPush (some "dev")) := by
  have hasks : ∀ {ref branch : String} {flat : Push}, Text.isAllBlank ref = false →
      branchName ref = branch → (appPush (some branch)).reread = flat →
      flat ≠ appPush (some branch) → AsksOtherwise ref (appPush (some branch)) flat := by
    intro ref branch flat hblank hbranch hreread hdiffer
    have hpush := ofNotification_pushNotification hblank hbranch
    obtain ⟨_, _, hnotified⟩ := Push.notified_of_ofNotification hpush
    have hflat := hnotified.filled.ofFlat_members
    rw [hreread] at hflat
    exact
      { accepted := hpush
        digested := hflat
        differ := hdiffer
        notified := fun answer => calls_of_notification answer hpush (parse_text_pushNotification ref)
          leads_gitCodePushed
        posted := fun answer => calls_of_digest answer hflat leads_gitPush }
  constructor
  · exact hasks (by decide) (by decide) (by decide) (by decide)
  · exact hasks (by decide) (by decide) (by decide) (by decide)

end Dispatcher

end BuildHooks
