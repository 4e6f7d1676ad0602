import BuildHooks.Proofs.Dispatch.DefaultCalls
import BuildHooks.Proofs.Json.Local
import BuildHooks.Proofs.Push.Checks

/-! The numbers of a pull request, from the text of a notification to the scheduler and back into the
answer. Those that their words hold are handed on as they are written, and the answer has the digits of
the notification. A notification with any other number is refused, though it may be read with a real
number in the place of the whole one. And whatever the scheduler is asked about, a text has written. -/

namespace BuildHooks

open Event Payload

/-- The check asks for a whole number. -/
def Payload.Check.Numeric : Check → Prop
  | .field _ .positive => True
  | .field _ .optionalInteger => True
  | _ => False

namespace PullRequest

/-- The text of a notification writes the number of the pull request, and that of the iteration if there
is one, by their digits. But for these numbers nothing is wrong with what it writes. -/
structure Numbered (payload : Payload) (n : Int) (m? : Option Int) (body : String) : Prop where
  written : ∃ text after, Json.Writes (n :: m?.toList) Json.maxLevels (.object payload) text ∧
    Json.Blank after ∧ body.toList = text ++ after
  number : payload.field? "resource.pullRequestId" = some (.number (.integer n))
  iteration : payload.present? "resource.iterationId" = m?.map Json.ofInt
  otherwise : ∀ check ∈ notificationChecks, ¬check.Numeric → check.Passes payload

/-- The number of the pull request is positive and has 64 bits, and that of the iteration has 64 bits with
its sign. -/
def InRange (n : Int) (m? : Option Int) : Prop :=
  (1 ≤ n ∧ n ≤ 2 ^ 64 - 1) ∧ ∀ m ∈ m?, -2 ^ 63 ≤ m ∧ m ≤ 2 ^ 63 - 1

variable {payload : Payload} {n : Int} {m? : Option Int} {body : String}

theorem exists_route_of_numeric {check : Check} (hcheck : check ∈ notificationChecks)
    (h : check.Numeric) :
    ∃ route : Route, (route.path = "resource.pullRequestId" ∧ check = .field route .positive) ∨
      (route.path = "resource.iterationId" ∧ check = .field route .optionalInteger) := by
  simp only [notificationChecks, List.mem_cons, List.not_mem_nil, or_false] at hcheck
  rcases hcheck with rfl | rfl | rfl | rfl | rfl | rfl | rfl | rfl | rfl
  · cases h
  · cases h
  · cases h
  · exact ⟨_, .inl ⟨by decide, rfl⟩⟩
  · cases h
  · cases h
  · cases h
  · exact ⟨_, .inr ⟨by decide, rfl⟩⟩
  · cases h

theorem InRange.exact (h : InRange n m?) :
    ∀ i ∈ n :: m?.toList, (Json.Number.integer i).Exact := by
  obtain ⟨hn, hm⟩ := h
  intro i hi
  show -(Text.signedEnd : Int) ≤ i ∧ i < Text.wordEnd
  unfold Text.signedEnd Text.wordEnd
  rcases List.mem_cons.mp hi with rfl | hi
  · omega
  · have := hm i (Option.mem_toList.mp hi)
    omega

/-- Whatever is read as a notification with whole numbers, if any, is written in this way. -/
theorem numbered_of_parse (hbody : Payload.parse body = .ok payload)
    (number : payload.field? "resource.pullRequestId" = some (.number (.integer n)))
    (iteration : payload.present? "resource.iterationId" = m?.map Json.ofInt)
    (otherwise : ∀ check ∈ notificationChecks, ¬check.Numeric → check.Passes payload) :
    Numbered payload n m? body := by
  refine ⟨?_, number, iteration, otherwise⟩
  unfold Payload.parse at hbody
  split at hbody
  · next hparse =>
    cases hbody
    obtain ⟨text, after, hread, hafter, htext⟩ := Json.exists_readAs_of_parse hparse
    exact ⟨text, after, .inl hread, hafter, htext⟩
  · cases hbody
  · cases hbody

/-- Whatever is accepted is written in this way, with the numbers that it was accepted with, and these are
in range. -/
theorem numbered_of_accepted (hbody : Payload.parse body = .ok payload) {r : PullRequest}
    (hr : ofNotification payload = .ok r) :
    ∃ m?, Numbered payload r.number m? body ∧ InRange r.number m? ∧ r.iteration = m?.getD (-1) := by
  obtain ⟨_, _, iteration, hnotified⟩ := notified_of_ofNotification hr
  obtain ⟨hfield, hpos⟩ := requiredPositive_eq_ok_iff.mp hnotified.number
  obtain ⟨hpresent, hsigned⟩ := optionalInteger_eq_ok_iff.mp hnotified.iterationField
  have hpasses := (checked_ofNotification payload).accepts.mp ⟨r, hr⟩
  have hlt := requiredPositive_lt hbody hnotified.number
  refine ⟨iteration, ?_, ⟨?_, ?_⟩, hnotified.iteration⟩
  · apply numbered_of_parse hbody hfield hpresent
    intro check hcheck _
    exact hpasses check hcheck
  · unfold Text.wordEnd at hlt
    omega
  · intro m hm
    have := hsigned m hm
    unfold Text.signedEnd at this
    omega

/-- In range, the notification is read as it is written. -/
theorem Numbered.parse (h : Numbered payload n m? body) (hrange : InRange n m?) :
    Payload.parse body = .ok payload := by
  obtain ⟨text, after, hwrites, hafter, hbody⟩ := h.written
  have hread := Json.parse_of_readAs hafter hbody (hwrites.readAs hrange.exact)
  rw [Payload.parse, hread]

/-- In range, nothing is wrong with the notification, and its numbers are those that it writes. -/
theorem Numbered.accepted (h : Numbered payload n m? body) (hrange : InRange n m?) :
    ∃ r, ofNotification payload = .ok r ∧ (r.number : Int) = n ∧ r.iteration = m?.getD (-1) := by
  have hnumber := h.number
  have hiteration := h.iteration
  have hpasses : ∀ check ∈ notificationChecks, check.Passes payload := by
    intro check hcheck
    by_cases hnumeric : check.Numeric
    · obtain ⟨route, ⟨hpath, rfl⟩ | ⟨hpath, rfl⟩⟩ := exists_route_of_numeric hcheck hnumeric
      · rw [← hpath] at hnumber
        apply Check.Passes.admitted _ _ _ (field?_path_eq_some_iff.mp hnumber)
        exact .positive n (Int.lt_of_lt_of_le Int.zero_lt_one hrange.1.1)
      · rw [← hpath] at hiteration
        cases m? with
        | none => exact .absent _ _ rfl (absent_iff.mpr hiteration)
        | some m =>
            have hm := hrange.2 m rfl
            apply Check.Passes.admitted _ _ _ (present?_path_eq_some_iff.mp hiteration).1
            apply Demand.Admits.optionalInteger m
            · unfold Text.signedEnd
              omega
            · unfold Text.signedEnd
              omega
    · exact h.otherwise check hcheck hnumeric
  obtain ⟨r, hr⟩ := (checked_ofNotification payload).accepts.mpr hpasses
  obtain ⟨_, _, iteration, hnotified⟩ := notified_of_ofNotification hr
  refine ⟨r, hr, ?_, ?_⟩
  · have hfield := (requiredPositive_eq_ok_iff.mp hnotified.number).1
    rw [h.number] at hfield
    cases hfield
    rfl
  · have hpresent := (optionalInteger_eq_ok_iff.mp hnotified.iterationField).1
    rw [h.iteration] at hpresent
    have hinjective : Function.Injective Json.ofInt := by
      intro i j hij
      cases hij
      rfl
    rw [hnotified.iteration, Option.map_injective hinjective hpresent]

/-- A text that is read all the same does not have the numbers in range if they are not. -/
theorem Numbered.inRange (h : Numbered payload n m? body) {read : Payload}
    (hbody : Payload.parse body = .ok read) {r : PullRequest} (hr : ofNotification read = .ok r) :
    InRange n m? := by
  obtain ⟨text, after, hwrites, hafter, htext⟩ := h.written
  have hkeeps : Json.Keeps (.object payload) (.object read) := by
    rcases hwrites.unreadable_or with hfault | ⟨v, hkeeps, hread⟩
    · obtain ⟨complaint, hparse⟩ := Json.parse_of_unreadable hafter htext hfault
      rw [Payload.parse, hparse] at hbody
      cases hbody
    · rw [Payload.parse, Json.parse_of_readAs hafter htext hread] at hbody
      cases v with
      | object members =>
          cases hbody
          exact hkeeps
      | _ => cases hbody
  obtain ⟨i?, hnumbered, ⟨hrange, hranges⟩, _⟩ := numbered_of_accepted hbody hr
  constructor
  · obtain ⟨number, hnumber, hstands⟩ := hkeeps _ n h.number
    change read.field? _ = _ at hnumber
    rw [hnumbered.number] at hnumber
    cases hnumber
    rwa [← hstands _ rfl]
  · rintro m rfl
    obtain ⟨number, hnumber, hstands⟩ := hkeeps _ m (field?_of_present? h.iteration)
    change read.field? _ = _ at hnumber
    have hpresent : read.present? "resource.iterationId" = some (.number number) := by
      rw [present?, hnumber]
    rw [hnumbered.iteration] at hpresent
    cases i? with
    | none => cases hpresent
    | some i =>
        cases hpresent
        rw [← hstands i rfl]
        exact hranges i rfl

end PullRequest

namespace Dispatcher

open Dispatch PullRequest

variable {root path body : String} {payload : Payload} {n : Int} {m? : Option Int}

/-- The answer tells the number of the pull request by the digits of `n`. -/
def TellsNumber (response : Response) (n : Int) : Prop :=
  ∃ rest, response.body.toList =
    "\x7b\"eventName\":\"pullRequestMergeCommitCreated\",\"pullRequestId\":".toList ++
      ((Json.Number.integer n).chars ++ ',' :: rest)

theorem leads_unique {name name' : String} {factory factory' : Factory}
    (hmem : (name, factory) ∈ builtins) (hmem' : (name', factory') ∈ builtins)
    (h : Leads root path name) (h' : Leads root path name') : name' = name := by
  have hreaches : (ofDefault root).Reaches path ⟨name, factory⟩ := reaches_default_iff.mpr ⟨hmem, h⟩
  have hreaches' : (ofDefault root).Reaches path ⟨name', factory'⟩ :=
    reaches_default_iff.mpr ⟨hmem', h'⟩
  exact congrArg Entry.name (hreaches.eq hreaches')

theorem mem_builtins_mergeCommit :
    (pullRequestMergeCommitCreated, mergeCommitFactory) ∈ builtins := by
  simp [builtins]

/-- What is asked under the path of the merge commits is asked about the pull request of the body. -/
theorem exists_of_asks (hpath : Leads root path pullRequestMergeCommitCreated) {event : String}
    {call : Call} {about : Json.Members} (h : Asks root path body event call about) :
    ∃ payload r, Payload.parse body = .ok payload ∧ PullRequest.ofNotification payload = .ok r ∧
      call = .pullRequest r := by
  obtain ⟨factory, _, hmem, hevent, _, _⟩ := h.hands
  have heq := leads_unique mem_builtins_mergeCommit hmem hpath hevent
  cases h with
  | codePushed => exact absurd heq (by decide)
  | push => exact absurd heq (by decide)
  | pullRequest payload r _ hbody hr => exact ⟨payload, r, hbody, hr, rfl⟩

theorem tellsNumber_triggered (r : PullRequest) (outcomes : List Outcome) (status : Status)
    (event : Option String) :
    TellsNumber ⟨status, (triggered pullRequestMergeCommitCreated
      [("pullRequestId", Json.ofNat r.number), ("commit", .string r.push.commit)] outcomes).text,
      event⟩ r.number := by
  apply Exists.intro
  show (Json.render _).toList = _
  rw [Json.toList_render, triggered, List.cons_append, List.cons_append, Json.chars,
    Json.membersChars, List.cons_append, Json.membersChars]
  rfl

/-- The scheduler is asked about a merge commit exactly if the numbers that its notification writes are in
range, and it is asked with these. The answer then tells the number by the same digits; if one of the
numbers is out of range, the notification is refused. Whatever the body, the scheduler is asked about
nothing but numbers in range that the body writes. -/
theorem merge_commit_numbers (answer : Call → List Log.Record × Reply)
    (hpath : Leads root path pullRequestMergeCommitCreated) (body : String) :
    (∀ payload n m?, Numbered payload n m? body →
      (InRange n m? → ∃ r : PullRequest,
        (((ofDefault root).dispatch path body).run answer).2.calls = [.pullRequest r] ∧
        (r.number : Int) = n ∧ r.iteration = m?.getD (-1) ∧
        (∀ outcomes, (answer (.pullRequest r)).2 = .ok outcomes →
          (((ofDefault root).dispatch path body).run answer).1.status.code = 200) ∧
        ((((ofDefault root).dispatch path body).run answer).1.status.code = 200 →
          TellsNumber (((ofDefault root).dispatch path body).run answer).1 n)) ∧
      (¬InRange n m? →
        (((ofDefault root).dispatch path body).run answer).2.calls = [] ∧
        (((ofDefault root).dispatch path body).run answer).1.status.code = 400)) ∧
    ∀ call ∈ (((ofDefault root).dispatch path body).run answer).2.calls,
      ∃ r payload m?, call = .pullRequest r ∧ Numbered payload r.number m? body ∧
        InRange r.number m? ∧ r.iteration = m?.getD (-1) := by
  refine ⟨fun payload n m? h => ⟨?_, ?_⟩, ?_⟩
  · intro hrange
    obtain ⟨r, hr, hnumber, hiteration⟩ := h.accepted hrange
    have hasks := Asks.pullRequest payload r hpath (h.parse hrange) hr
    obtain ⟨story, hcourse, hcalls, hok, herror⟩ := course_of_asks answer hasks
    rw [hcourse.run, Story.calls_trace]
    refine ⟨r, hcalls, hnumber, hiteration, ?_, ?_⟩
    · intro outcomes hreply
      rw [(hok outcomes hreply).1]
      rfl
    · intro hcode
      cases hreply : (answer (.pullRequest r)).2 with
      | ok outcomes =>
          simp only [(hok outcomes hreply).1, ← hnumber]
          exact tellsNumber_triggered r outcomes _ _
      | error failure =>
          simp only [(herror failure hreply).1] at hcode
          cases hcode
  · intro hrange
    have hnone : ∀ event call about, ¬Asks root path body event call about := by
      intro event call about hasks
      obtain ⟨read, r, hbody, hr, _⟩ := exists_of_asks hpath hasks
      exact hrange (h.inRange hbody hr)
    obtain ⟨story, hcourse⟩ := (ofDefault root).exists_course path body answer
    obtain ⟨hcalls, hresponse⟩ := course_of_not_asks answer hnone hcourse
    rw [hcourse.run, Story.calls_trace]
    refine ⟨hcalls, ?_⟩
    rcases hresponse with hcode | ⟨_, hping, _⟩
    · exact hcode
    · have hmem : (ping, pingFactory) ∈ builtins := List.mem_cons_self
      exact absurd (leads_unique mem_builtins_mergeCommit hmem hpath hping) (by decide)
  · intro call hcall
    obtain ⟨event, about, hasks⟩ := asks_of_mem_calls root path body answer hcall
    obtain ⟨payload, r, hbody, hr, rfl⟩ := exists_of_asks hpath hasks
    obtain ⟨m?, hnumbered, hrange, hiteration⟩ := numbered_of_accepted hbody hr
    exact ⟨r, payload, m?, rfl, hnumbered, hrange, hiteration⟩

/-- A notification of a merge commit. -/
def mergeNotification (n m : Int) : Payload :=
  [("resource", .object
    [("repository", .object
      [("remoteUrl", .string "https://host/main/_git/app"), ("name", .string "app"),
       ("project", .object [("name", .string "app")])]),
     ("pullRequestId", Json.ofInt n), ("targetRefName", .string "refs/heads/master"),
     ("lastMergeCommit", .object [("commitId", .string "1f")]), ("iterationId", Json.ofInt m)])]

theorem writes_mergeNotification (n m : Int) : Json.Writes [n, m] Json.maxLevels
    (.object (mergeNotification n m)) (Json.chars (.object (mergeNotification n m))) := by
  have hproject : Json.Fits Json.Number.Whole 124 (.object [("name", .string "app")]) :=
    .object _ _ (by simp) (by simp [Json.Fits.string])
  have hrepository : Json.Fits Json.Number.Whole 125 (.object
      [("remoteUrl", .string "https://host/main/_git/app"), ("name", .string "app"),
       ("project", .object [("name", .string "app")])]) :=
    .object _ _ (by simp) (by simp [Json.Fits.string, hproject])
  have hcommit : Json.Fits Json.Number.Whole 125 (.object [("commitId", .string "1f")]) :=
    .object _ _ (by simp) (by simp [Json.Fits.string])
  have htarget : Json.Fits Json.Number.Whole 125 (.string "refs/heads/master") := .string _ _
  have hn : n ∈ [n, m] := by simp
  have hm : m ∈ [n, m] := by simp
  refine Json.writes_object (by simp [mergeNotification]) (by simp [mergeNotification])
    (List.forall_mem_singleton.mpr (Json.writes_object (by simp) (by simp) ?_))
  simp only [List.forall_mem_cons, List.not_mem_nil, false_implies, implies_true, and_true]
  exact ⟨Json.writes_of_fits hrepository, Json.writes_decimal hn, Json.writes_of_fits htarget,
    Json.writes_of_fits hcommit, Json.writes_decimal hm⟩

theorem numbered_mergeNotification (n m : Int) :
    Numbered (mergeNotification n m) n (some m) (Payload.text (mergeNotification n m)) where
  written := by
    refine ⟨_, [], writes_mergeNotification n m, Json.blank_nil, ?_⟩
    rw [List.append_nil, Payload.text, Json.toList_render]
  number := rfl
  iteration := rfl
  otherwise := by
    have htext : ∀ (route : Route) (s : String) (c : Char),
        (mergeNotification n m).field? route.path = some (.string s) → c ∈ s.toList →
        Text.isBlank c = false → (Check.field route .text).Passes (mergeNotification n m) := by
      intro route s c hfield hc hblank
      exact .admitted _ _ _ (field?_path_eq_some_iff.mp hfield) (.text s ⟨c, hc, hblank⟩)
    intro check hcheck hnumeric
    simp only [notificationChecks, List.mem_cons, List.not_mem_nil, or_false] at hcheck
    rcases hcheck with rfl | rfl | rfl | rfl | rfl | rfl | rfl | rfl | rfl
    · exact htext _ "https://host/main/_git/app" 'h' rfl (by decide) (by decide)
    · exact htext _ "app" 'a' rfl (by decide) (by decide)
    · exact htext _ "app" 'a' rfl (by decide) (by decide)
    · exact absurd trivial hnumeric
    · exact htext _ "1f" 'f' rfl (by decide) (by decide)
    · exact htext _ "refs/heads/master" 'r' rfl (by decide) (by decide)
    · exact .absent _ _ rfl (absent_iff.mpr rfl)
    · exact absurd trivial hnumeric
    · refine .marked _ "https://host/main/_git/app" (field?_path_eq_some_iff.mp rfl) ?_
      exact ⟨"https://host/main".toList, "app".toList, by decide⟩

theorem leads_mergeCommit : Leads "team-events" "/team-events/pullRequestMergeCommitCreated"
    pullRequestMergeCommitCreated :=
  ⟨"pullRequestMergeCommitCreated", ⟨by decide, .inl (by decide)⟩, rfl⟩

/-- The largest number and the lowest iteration are handed on, and the number after is refused. -/
theorem merge_commit_numbers_extreme :
    (∃ r : PullRequest,
      (((ofDefault "team-events").dispatch "/team-events/pullRequestMergeCommitCreated"
        (Payload.text (mergeNotification 18446744073709551615 (-9223372036854775808)))).run
          fun _ => ([], .ok [])).2.calls = [.pullRequest r] ∧
      r.number = 18446744073709551615 ∧ r.iteration = -9223372036854775808) ∧
    (((ofDefault "team-events").dispatch "/team-events/pullRequestMergeCommitCreated"
      (Payload.text (mergeNotification 18446744073709551616 (-9223372036854775808)))).run
        fun _ => ([], .ok [])).2.calls = [] := by
  constructor
  · have hrange : InRange 18446744073709551615 (some (-9223372036854775808)) := by
      refine ⟨by decide, fun m hm => ?_⟩
      cases hm
      decide
    obtain ⟨r, hcalls, hnumber, hiteration, _⟩ := ((merge_commit_numbers (fun _ => ([], .ok []))
      leads_mergeCommit _).1 _ _ _ (numbered_mergeNotification _ _)).1 hrange
    exact ⟨r, hcalls, by omega, hiteration⟩
  · have hrange : ¬InRange 18446744073709551616 (some (-9223372036854775808)) :=
      fun h => absurd h.1 (by decide)
    exact (((merge_commit_numbers (fun _ => ([], .ok [])) leads_mergeCommit _).1 _ _ _
      (numbered_mergeNotification _ _)).2 hrange).1

end Dispatcher

end BuildHooks
