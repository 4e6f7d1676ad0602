import BuildHooks.Proofs.Push.Extract
import BuildHooks.Proofs.Text.Cut
import BuildHooks.Proofs.Text.Lowercase

/-! The collection that a notification is about. Its address is cut out of the repository's, whose first
mark ends it; a segment that spells the project, in any case of ASCII letters, is taken off. Counted in
bytes or in characters the cuts are the same, and none of them fails. -/

namespace BuildHooks

open Text

/-- The address of the collection, of a repository whose own address is `before` up to the mark: without
the segment of the project, if there is one and something is left. -/
inductive CollectionOf (project before : List Char) : List Char → Prop where
  | inProject (collection segment : List Char) (hleft : collection ≠ [])
      (hsame : sameIgnoringAsciiCase segment project = true)
      (h : before = collection ++ '/' :: segment) : CollectionOf project before collection
  | bare (h : ∀ collection segment, before = collection ++ '/' :: segment →
      sameIgnoringAsciiCase segment project = true → collection = []) :
      CollectionOf project before before

variable {project before collection : List Char}

theorem dropProject?_eq_some_iff : dropProject? project before = some collection ↔
    collection ≠ [] ∧ ∃ segment, before = collection ++ '/' :: segment ∧
      sameIgnoringAsciiCase segment project = true := by
  unfold dropProject?
  rw [Option.ite_none_right_eq_some, same_cons_slash_iff]
  constructor
  · rintro ⟨⟨hpos, segment, hsegment, hsame⟩, hcollection⟩
    cases hcollection
    refine ⟨?_, segment, ?_, hsame⟩
    · rw [← List.length_pos_iff, List.length_take]
      omega
    · rw [← hsegment, List.take_append_drop]
  · rintro ⟨hleft, segment, rfl, hsame⟩
    have hstart : (collection ++ '/' :: segment).length - (project.length + 1) = collection.length := by
      rw [List.length_append, List.length_cons, length_eq_of_same hsame]
      omega
    rw [hstart, List.drop_left, List.take_left]
    exact ⟨⟨List.length_pos_iff.mpr hleft, segment, rfl, hsame⟩, rfl⟩

theorem collectionOf_dropProject? (project before : List Char) :
    CollectionOf project before ((dropProject? project before).getD before) := by
  cases hdrop : dropProject? project before with
  | none =>
      refine .bare fun collection segment h hsame => ?_
      by_contra hleft
      rw [dropProject?_eq_some_iff.mpr ⟨hleft, segment, h, hsame⟩] at hdrop
      cases hdrop
  | some collection =>
      obtain ⟨hleft, segment, h, hsame⟩ := dropProject?_eq_some_iff.mp hdrop
      exact .inProject collection segment hleft hsame h

theorem beforeMark?_eq_some_iff {remote : String} :
    beforeMark? remote = some before ↔ FirstAt repositoryMark before remote.toList :=
  map_fst_breakAt?_eq_some_iff

theorem requiredCollection_of_firstAt {remote : String}
    (h : FirstAt repositoryMark before remote.toList) (project : String) :
    requiredCollection remote project =
      .ok (String.ofList (withFinalSlash ((dropProject? project.toList before).getD before))) := by
  rw [requiredCollection, collectionUri?, beforeMark?_eq_some_iff.mpr h]
  rfl

theorem requiredCollection_of_not_isInfix {remote : String} (h : ¬repositoryMark <:+: remote.toList)
    (project : String) : requiredCollection remote project =
      .error (.invalid remotePath "a Git remote URL containing '/_git/'") := by
  have hnone : beforeMark? remote = none := by
    rw [Option.eq_none_iff_forall_ne_some]
    intro before hbefore
    exact h (beforeMark?_eq_some_iff.mp hbefore).isInfix
  rw [requiredCollection, collectionUri?, hnone]
  rfl

/-- A slash that is put after the address of a collection stands after it in the repository's. -/
theorem isPrefix_withFinalSlash (cs rest : List Char) : withFinalSlash cs <+: cs ++ '/' :: rest := by
  rw [withFinalSlash]
  split
  · exact List.prefix_append _ _
  · exact ⟨rest, by rw [List.append_assoc, List.singleton_append]⟩

theorem CollectionOf.isPrefix (h : CollectionOf project before collection)
    (rest : List Char) : withFinalSlash collection <+: before ++ '/' :: rest := by
  cases h with
  | inProject _ segment _ _ h =>
      rw [h, List.append_assoc, List.cons_append]
      exact isPrefix_withFinalSlash _ _
  | bare _ => exact isPrefix_withFinalSlash _ _

/-! ### The cuts by bytes -/

/-- Takes the project's segment off by counts of bytes. There is nothing at all if a cut fails that is
made without looking where it falls. -/
def cutProject (project before : String) : Option String :=
  let suffix := "/" ++ project
  let start := before.utf8ByteSize - suffix.utf8ByteSize
  match cut? before start with
  | some (_, tail) =>
    if 0 < start ∧ sameIgnoringAsciiCase tail.toList suffix.toList then
      (cut? before start).map Prod.fst
    else some before
  | none => some before

/-- The address of the collection by counts of bytes. -/
def cutCollection (remote project : String) : Option (Except Payload.Rejection String) :=
  match find? "/_git/" remote with
  | none => some (.error (.invalid remotePath "a Git remote URL containing '/_git/'"))
  | some offset =>
    ((cut? remote offset).map Prod.fst).bind fun before =>
      (cutProject project before).map fun collection =>
        .ok (String.ofList (withFinalSlash collection.toList))

/-- Where the suffix would begin, the text is cut exactly if it ends in the project's segment. -/
theorem dropProject?_eq_some_iff_cut? {project before collection : String} :
    dropProject? project.toList before.toList = some collection.toList ↔
      ∃ tail,
        cut? before (before.utf8ByteSize - ("/" ++ project).utf8ByteSize) = some (collection, tail) ∧
        0 < before.utf8ByteSize - ("/" ++ project).utf8ByteSize ∧
        sameIgnoringAsciiCase tail.toList ("/" ++ project).toList = true := by
  have hsuffix : ("/" ++ project).toList = '/' :: project.toList := String.toList_append
  rw [dropProject?_eq_some_iff, hsuffix]
  constructor
  · rintro ⟨hleft, segment, hbefore, hsame⟩
    have hparts : before = collection ++ String.ofList ('/' :: segment) := by
      rw [← String.toList_inj, String.toList_append, String.toList_ofList, hbefore]
    have htail : sameIgnoringAsciiCase (String.ofList ('/' :: segment)).toList
        ("/" ++ project).toList = true := by
      rw [String.toList_ofList, hsuffix]
      exact same_cons_slash_iff.mpr ⟨segment, rfl, hsame⟩
    have hstart : before.utf8ByteSize - ("/" ++ project).utf8ByteSize = collection.utf8ByteSize := by
      rw [hparts, String.utf8ByteSize_append, utf8ByteSize_eq_of_same htail, Nat.add_sub_cancel]
    rw [hstart]
    refine ⟨_, cut?_eq_some_iff.mpr ⟨hparts, rfl⟩, ?_, hsuffix ▸ htail⟩
    rw [Nat.pos_iff_ne_zero, Ne, String.utf8ByteSize_eq_zero_iff]
    rintro rfl
    exact hleft String.toList_empty
  · rintro ⟨tail, hcut, hpos, hsame⟩
    obtain ⟨hparts, hsize⟩ := cut?_eq_some_iff.mp hcut
    obtain ⟨segment, htail, hsegment⟩ := same_cons_slash_iff.mp hsame
    refine ⟨?_, segment, by rw [hparts, String.toList_append, htail], hsegment⟩
    intro hempty
    rw [String.toList_eq_nil_iff.mp hempty, String.utf8ByteSize_empty] at hsize
    omega

theorem cutProject_eq (project before : String) : cutProject project before =
    some (String.ofList ((dropProject? project.toList before.toList).getD before.toList)) := by
  rw [cutProject]
  cases hdrop : dropProject? project.toList before.toList with
  | some collection =>
      rw [← String.toList_ofList (l := collection)] at hdrop
      obtain ⟨tail, hcut, hends⟩ := dropProject?_eq_some_iff_cut?.mp hdrop
      simp only [hcut, if_pos hends, Option.map_some, Option.getD_some]
  | none =>
      have hwhole : some before = some (String.ofList before.toList) := by rw [String.ofList_toList]
      simp only [Option.getD_none]
      split
      · next tail hcut =>
        split
        · next hends =>
          rw [dropProject?_eq_some_iff_cut?.mpr ⟨tail, hcut, hends⟩] at hdrop
          cases hdrop
        · exact hwhole
      · exact hwhole

/-- No cut fails, and what they leave is the address of the collection. -/
theorem cutCollection_eq (remote project : String) :
    cutCollection remote project = some (requiredCollection remote project) := by
  unfold cutCollection
  cases hfind : find? "/_git/" remote with
  | none =>
      rw [requiredCollection_of_not_isInfix (find?_eq_none_iff.mp hfind)]
  | some offset =>
      obtain ⟨before, hfirst, rfl⟩ := find?_eq_some_iff.mp hfind
      obtain ⟨rest, hrest⟩ := hfirst.occurs
      have hcut : cut? remote before.utf8ByteSize =
          some (before, String.ofList ("/_git/".toList ++ rest)) := by
        apply cut?_eq_some_iff.mpr
        refine ⟨?_, rfl⟩
        rw [← String.toList_inj, String.toList_append, String.toList_ofList, hrest]
      rw [requiredCollection_of_firstAt hfirst]
      simp only [hcut, Option.map_some, Option.bind_some, cutProject_eq, String.toList_ofList]

/-! ### The collection of a notification -/

/-- All that is asked of the notification of a push is in it, but that its repository may be in no
collection. -/
structure Push.Complete (payload : Payload) (remote project : String) : Prop where
  repoUri : payload.requiredText remotePath = .ok remote
  projectId : payload.requiredText "resource.repository.project.name" = .ok project
  repoId : ∃ name, payload.requiredText "resource.repository.name" = .ok name
  ref : ∃ ref, payload.requiredText "resource.refUpdates.0.name" = .ok ref
  commit : ∃ commit, payload.requiredText "resource.refUpdates.0.newObjectId" = .ok commit
  pushedBy : ∃ pusher?, payload.optionalText "resource.pushedBy.displayName" = .ok pusher?

/-- All that is asked of the notification of a merge commit is in it, but that its repository may be in
no collection. -/
structure PullRequest.Complete (payload : Payload) (remote project : String) : Prop where
  repoUri : payload.requiredText remotePath = .ok remote
  projectId : payload.requiredText "resource.repository.project.name" = .ok project
  repoId : ∃ name, payload.requiredText "resource.repository.name" = .ok name
  number : ∃ number, payload.requiredPositive "resource.pullRequestId" = .ok number
  commit : ∃ commit, payload.requiredText "resource.lastMergeCommit.commitId" = .ok commit
  target : ∃ target, payload.requiredText "resource.targetRefName" = .ok target
  createdBy : ∃ creator?, payload.optionalText "resource.createdBy.displayName" = .ok creator?
  iteration : ∃ iteration?, payload.optionalInteger "resource.iterationId" = .ok iteration?

/-- What is said of the collection of a project's repository by a notification in which nothing else is
wrong. -/
inductive CollectionRead (remote project : String) : Except Payload.Rejection String → Prop where
  | push (payload : Payload) (h : Push.Complete payload remote project) :
      CollectionRead remote project ((Push.ofNotification payload).map Push.collectionUri)
  | pullRequest (payload : Payload) (h : PullRequest.Complete payload remote project) :
      CollectionRead remote project
        ((PullRequest.ofNotification payload).map fun r => r.push.collectionUri)

theorem CollectionRead.eq_requiredCollection {remote project : String}
    {outcome : Except Payload.Rejection String} (h : CollectionRead remote project outcome) :
    outcome = requiredCollection remote project := by
  cases h with
  | push payload h =>
      obtain ⟨repoId, hrepoId⟩ := h.repoId
      obtain ⟨ref, href⟩ := h.ref
      obtain ⟨commit, hcommit⟩ := h.commit
      obtain ⟨pusher?, hpusher⟩ := h.pushedBy
      simp only [Push.ofNotification, h.repoUri, h.projectId, hrepoId, href, hcommit, hpusher,
        Except.bind, bind]
      cases requiredCollection remote project <;> rfl
  | pullRequest payload h =>
      obtain ⟨repoId, hrepoId⟩ := h.repoId
      obtain ⟨number, hnumber⟩ := h.number
      obtain ⟨commit, hcommit⟩ := h.commit
      obtain ⟨target, htarget⟩ := h.target
      obtain ⟨creator?, hcreator⟩ := h.createdBy
      obtain ⟨iteration?, hiteration⟩ := h.iteration
      simp only [PullRequest.ofNotification, h.repoUri, h.projectId, hrepoId, hnumber, hcommit, htarget,
        hcreator, hiteration, Except.bind, bind]
      cases requiredCollection remote project <;> rfl

/-- How the address of a repository decides on what is said of its collection. -/
structure Collected (remote project : String) (outcome : Except Payload.Rejection String) : Prop where
  refused : ¬"/_git/".toList <:+: remote.toList →
    outcome = .error
      (.invalid "resource.repository.remoteUrl" "a Git remote URL containing '/_git/'")
  cut : "/_git/".toList <:+: remote.toList → ∃ before collection,
    FirstAt "/_git/".toList before remote.toList ∧
    CollectionOf project.toList before collection ∧
    outcome = .ok (String.ofList (withFinalSlash collection))
  endsInSlash : ∀ uri, outcome = .ok uri → uri.toList.getLast? = some '/'
  /-- Even the slash that may have been added is one of the repository's address. -/
  within : ∀ uri, outcome = .ok uri → uri.toList <+: remote.toList
  /-- What follows the mark does not matter. -/
  unmoved : ∀ before rest other outcome', FirstAt "/_git/".toList before remote.toList →
    other.toList = before ++ ("/_git/".toList ++ rest) → CollectionRead other project outcome' →
    outcome' = outcome
  /-- No cut falls inside a character or past the end of a text. -/
  cutByBytes : cutCollection remote project = some outcome

theorem collected {remote project : String} {outcome : Except Payload.Rejection String}
    (h : CollectionRead remote project outcome) : Collected remote project outcome := by
  obtain rfl := h.eq_requiredCollection
  have hcut : "/_git/".toList <:+: remote.toList → ∃ before collection,
      FirstAt "/_git/".toList before remote.toList ∧
      CollectionOf project.toList before collection ∧
      requiredCollection remote project = .ok (String.ofList (withFinalSlash collection)) := by
    intro hmark
    obtain ⟨before, hfirst⟩ := exists_firstAt hmark
    exact ⟨before, _, hfirst, collectionOf_dropProject? _ _,
      requiredCollection_of_firstAt hfirst project⟩
  refine ⟨fun hnot => requiredCollection_of_not_isInfix hnot project, hcut, ?_, ?_, ?_,
    cutCollection_eq remote project⟩
  · exact fun uri huri => getLast?_of_requiredCollection huri
  · intro uri huri
    by_cases hmark : "/_git/".toList <:+: remote.toList
    · obtain ⟨before, collection, hfirst, hcollection, hok⟩ := hcut hmark
      rw [hok] at huri
      cases huri
      obtain ⟨rest, hrest⟩ := hfirst.occurs
      rw [String.toList_ofList, hrest]
      exact hcollection.isPrefix _
    · rw [requiredCollection_of_not_isInfix hmark] at huri
      cases huri
  · intro before rest other outcome' hfirst hother hread
    have hfirst' : FirstAt repositoryMark before other.toList := hother ▸ hfirst.replace rest
    rw [hread.eq_requiredCollection, requiredCollection_of_firstAt hfirst',
      requiredCollection_of_firstAt hfirst]

/-- A notification both of a push and of a merge commit in a project's repository. -/
def notificationFrom (remote project : String) : Payload :=
  [("resource", .object
    [("repository", .object
      [("remoteUrl", .string remote), ("name", .string "app"),
       ("project", .object [("name", .string project)])]),
     ("refUpdates", .array [.object [("name", .string "refs/heads/main"),
       ("newObjectId", .string "1f")]]),
     ("pullRequestId", Json.ofNat 7), ("targetRefName", .string "refs/heads/main"),
     ("lastMergeCommit", .object [("commitId", .string "1f")])])]

theorem complete_notificationFrom {remote project : String} (hremote : isAllBlank remote = false)
    (hproject : isAllBlank project = false) :
    Push.Complete (notificationFrom remote project) remote project ∧
      PullRequest.Complete (notificationFrom remote project) remote project := by
  have hrepoUri : (notificationFrom remote project).requiredText remotePath = .ok remote :=
    Payload.requiredText_eq_ok_iff.mpr ⟨rfl, hremote⟩
  have hprojectId :
      (notificationFrom remote project).requiredText "resource.repository.project.name" = .ok project :=
    Payload.requiredText_eq_ok_iff.mpr ⟨rfl, hproject⟩
  exact ⟨⟨hrepoUri, hprojectId, ⟨_, rfl⟩, ⟨_, rfl⟩, ⟨_, rfl⟩, ⟨_, rfl⟩⟩,
    ⟨hrepoUri, hprojectId, ⟨_, rfl⟩, ⟨_, rfl⟩, ⟨_, rfl⟩, ⟨_, rfl⟩, ⟨_, rfl⟩, ⟨_, rfl⟩⟩⟩

/-- The project is recognised beside a letter of two bytes, and a project whose segment would begin
between them is not. -/
theorem collected_beside_umlaut :
    CollectionRead "https://host/PLäNE/_git/app" "Pläne" (.ok "https://host/") ∧
    Collected "https://host/PLäNE/_git/app" "Pläne" (.ok "https://host/") ∧
    CollectionRead "https://host/PLäNE/_git/app" "ne" (.ok "https://host/PLäNE/") ∧
    Collected "https://host/PLäNE/_git/app" "ne" (.ok "https://host/PLäNE/") := by
  have hpush : CollectionRead "https://host/PLäNE/_git/app" "Pläne" (.ok "https://host/") := by
    have hcomplete : Push.Complete _ "https://host/PLäNE/_git/app" "Pläne" :=
      (complete_notificationFrom (by decide) (by decide)).1
    have hread := CollectionRead.push _ hcomplete
    have hok : requiredCollection "https://host/PLäNE/_git/app" "Pläne" = .ok "https://host/" := by
      decide
    rwa [hread.eq_requiredCollection, hok] at hread
  have hpullRequest :
      CollectionRead "https://host/PLäNE/_git/app" "ne" (.ok "https://host/PLäNE/") := by
    have hcomplete : PullRequest.Complete _ "https://host/PLäNE/_git/app" "ne" :=
      (complete_notificationFrom (by decide) (by decide)).2
    have hread := CollectionRead.pullRequest _ hcomplete
    have hok : requiredCollection "https://host/PLäNE/_git/app" "ne" = .ok "https://host/PLäNE/" := by
      decide
    rwa [hread.eq_requiredCollection, hok] at hread
  exact ⟨hpush, collected hpush, hpullRequest, collected hpullRequest⟩

end BuildHooks
