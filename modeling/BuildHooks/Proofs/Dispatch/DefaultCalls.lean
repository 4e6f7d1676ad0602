import Mathlib.Data.List.Forall2
import BuildHooks.Proofs.Dispatch.Course
import BuildHooks.Proofs.Event.Handing

/-! What the events that are there from the start ask the scheduler. A request asks once at most, and
asks exactly if its path leads to one of the three events that hand something on, its body is an object
and that event can read its arguments out of it. What the scheduler replies then decides the answer. Over
a run of requests the calls are those of the requests, in the order of these. -/

namespace BuildHooks

namespace Dispatch

open Event

/-- A request asks the scheduler for this, as this event, and is answered about this. -/
inductive Asks (root path body : String) : String → Call → Json.Members → Prop where
  | codePushed (payload : Payload) (push : Push) (hpath : Leads root path gitCodePushed)
      (hbody : Payload.parse body = .ok payload) (hpush : Push.ofNotification payload = .ok push) :
      Asks root path body "gitCodePushed" (.push push) [("commit", .string push.commit)]
  | push (payload : Payload) (push : Push) (hpath : Leads root path gitPush)
      (hbody : Payload.parse body = .ok payload) (hpush : Push.ofFlat payload = .ok push) :
      Asks root path body "gitPush" (.push push) [("commit", .string push.commit)]
  | pullRequest (payload : Payload) (r : PullRequest)
      (hpath : Leads root path pullRequestMergeCommitCreated)
      (hbody : Payload.parse body = .ok payload) (hr : PullRequest.ofNotification payload = .ok r) :
      Asks root path body "pullRequestMergeCommitCreated" (.pullRequest r)
        [("pullRequestId", Json.ofNat r.number), ("commit", .string r.push.commit)]

/-- How a request with a path and a body is served: which call it makes, if any, and its response. -/
structure Served (root : String) (answer : Call → List Log.Record × Reply)
    (request : String × String) (served : Option Call × Response) : Prop where
  call : ∀ call, served.1 = some call ↔ ∃ event about, Asks root request.1 request.2 event call about
  answered : ∀ event call about outcomes, Asks root request.1 request.2 event call about →
    (answer call).2 = .ok outcomes →
    served.2.status.code = 200 ∧ served.2.event = some event ∧
      Payload.parse served.2.body = .ok (("eventName", .string event) :: about
        ++ [("messages", .array (outcomes.map fun o => .string o.message))])
  failed : ∀ event call about failure, Asks root request.1 request.2 event call about →
    (answer call).2 = .error failure →
    served.2.status.code = 500 ∧ served.2.event = some event
  otherwise : served.1 = none → served.2.status.code = 400 ∨
    ∃ payload, Leads root request.1 ping ∧ Payload.parse request.2 = .ok payload ∧
      served.2 = ⟨.ok, payload.text, some ping⟩

variable {root path body : String}

theorem Asks.hands {event : String} {call : Call} {about : Json.Members}
    (h : Asks root path body event call about) :
    ∃ factory payload, (event, factory) ∈ builtins ∧ Leads root path event ∧
      Payload.parse body = .ok payload ∧ Hands factory payload event call about := by
  cases h with
  | codePushed payload push hpath hbody hpush =>
      exact ⟨codePushedFactory, payload, by simp [builtins, gitCodePushed], hpath, hbody,
        .codePushed payload push hpush⟩
  | push payload push hpath hbody hpush =>
      exact ⟨pushFactory, payload, by simp [builtins, gitPush], hpath, hbody,
        .push payload push hpush⟩
  | pullRequest payload r hpath hbody hr =>
      exact ⟨mergeCommitFactory, payload, by simp [builtins, pullRequestMergeCommitCreated], hpath,
        hbody, .pullRequest payload r hr⟩

theorem asks_of_hands {factory : Factory} {payload : Payload} {event : String} {call : Call}
    {about : Json.Members} (hpath : Leads root path event)
    (hbody : Payload.parse body = .ok payload) (h : Hands factory payload event call about) :
    Asks root path body event call about := by
  cases h with
  | codePushed _ push h => exact .codePushed payload push hpath hbody h
  | push _ push h => exact .push payload push hpath hbody h
  | pullRequest _ r h => exact .pullRequest payload r hpath hbody h

end Dispatch

namespace Dispatcher

open Event Dispatch

variable {root path body : String}

/-- The events that are there from the start, under a root. -/
def ofDefault (root : String) : Dispatcher :=
  ⟨Registry.default, root⟩

theorem reaches_default_iff {entry : Entry} :
    (ofDefault root).Reaches path entry ↔
      (entry.name, entry.factory) ∈ builtins ∧ Leads root path entry.name := by
  constructor
  · rintro ⟨segment, hnames, _, hlookup⟩
    obtain ⟨hmem, hlower⟩ := lookup?_default_iff.mp hlookup
    exact ⟨hmem, segment, hnames, hlower⟩
  · rintro ⟨hmem, segment, hnames, hlower⟩
    have hblank : Text.isAllBlank segment = false := by
      rw [← Text.isAllBlank_lowercase, hlower]
      exact isAllBlank_lowercase_of_mem_builtins hmem
    exact ⟨segment, hnames, hblank, lookup?_default_iff.mpr ⟨hmem, hlower⟩⟩

/-- A request asks for one thing at most. -/
theorem asks_unique {event event' : String} {call call' : Call} {about about' : Json.Members}
    (h : Asks root path body event call about) (h' : Asks root path body event' call' about') :
    event' = event ∧ call' = call ∧ about' = about := by
  obtain ⟨factory, payload, hmem, hpath, hbody, hhands⟩ := h.hands
  obtain ⟨factory', payload', hmem', hpath', hbody', hhands'⟩ := h'.hands
  have hreaches : (ofDefault root).Reaches path ⟨event, factory⟩ :=
    reaches_default_iff.mpr ⟨hmem, hpath⟩
  have hreaches' : (ofDefault root).Reaches path ⟨event', factory'⟩ :=
    reaches_default_iff.mpr ⟨hmem', hpath'⟩
  cases hreaches.eq hreaches'
  rw [hbody] at hbody'
  cases hbody'
  exact ⟨rfl, hhands.eq hhands'⟩

variable (answer : Call → List Log.Record × Reply)

/-- A request that asks for something asks for that alone, and is answered with what was triggered, or
fails. -/
theorem course_of_asks {event : String} {call : Call} {about : Json.Members}
    (h : Asks root path body event call about) :
    ∃ story, (ofDefault root).Course path body answer story ∧
      (story.uses.flatMap fun use => use.2.calls) = [call] ∧
      (∀ outcomes, (answer call).2 = .ok outcomes →
        story.response = ⟨.ok, (triggered event about outcomes).text, some event⟩ ∧
          Payload.parse story.response.body = .ok (triggered event about outcomes)) ∧
      (∀ failure, (answer call).2 = .error failure →
        story.response.status = .internalError ∧ story.response.event = some event) := by
  obtain ⟨factory, payload, hmem, hpath, hbody, hhands⟩ := h.hands
  have hreaches : (ofDefault root).Reaches path ⟨event, factory⟩ :=
    reaches_default_iff.mpr ⟨hmem, hpath⟩
  obtain ⟨handler, t, hcreate, ht, hcalls, hok, herror⟩ := hhands.create answer
  rcases hperform : (handler payload).run answer with ⟨performed, u⟩
  rw [hperform] at hcalls hok herror
  have huses : t.calls ++ (u.calls ++ []) = [call] := by
    change u.calls = [call] at hcalls
    rw [ht, hcalls]
    rfl
  cases hreply : (answer call).2 with
  | ok outcomes =>
      cases hok outcomes hreply
      refine ⟨_, .performed _ payload handler _ t u hreaches hbody hcreate hperform, huses, ?_, ?_⟩
      · intro outcomes' houtcomes
        cases houtcomes
        exact ⟨rfl, hhands.parse_triggered hbody outcomes⟩
      · intro failure hfailure
        cases hfailure
  | error failure =>
      obtain ⟨context, hfailed⟩ := herror failure hreply
      cases hfailed
      refine ⟨_, .failed _ payload handler _ t u hreaches hbody hcreate hperform, huses, ?_, ?_⟩
      · intro outcomes houtcomes
        cases houtcomes
      · intro failure' _
        exact ⟨rfl, rfl⟩

theorem served_of_asks {event : String} {call : Call} {about : Json.Members}
    (h : Asks root path body event call about) :
    Served root answer (path, body)
      (some call, (((ofDefault root).dispatch path body).run answer).1) ∧
    (((ofDefault root).dispatch path body).run answer).2.calls = [call] := by
  obtain ⟨story, hcourse, hcalls, hok, herror⟩ := course_of_asks answer h
  rw [hcourse.run, Story.calls_trace, hcalls]
  refine ⟨⟨?_, ?_, ?_, ?_⟩, rfl⟩
  · intro call'
    constructor
    · intro hcall
      cases hcall
      exact ⟨event, about, h⟩
    · rintro ⟨event', about', h'⟩
      rw [(asks_unique h h').2.1]
  · intro event' call' about' outcomes h' hreply
    obtain ⟨rfl, rfl, rfl⟩ := asks_unique h h'
    obtain ⟨hresponse, hparse⟩ := hok outcomes hreply
    rw [hresponse] at hparse ⊢
    exact ⟨rfl, rfl, hparse⟩
  · intro event' call' about' failure h' hreply
    obtain ⟨rfl, rfl, rfl⟩ := asks_unique h h'
    obtain ⟨hstatus, hevent⟩ := herror failure hreply
    rw [hstatus]
    exact ⟨rfl, hevent⟩
  · intro hnone
    cases hnone

/-- A request that asks for nothing is refused, or is a ping and is answered with its payload. -/
theorem course_of_not_asks (h : ∀ event call about, ¬Asks root path body event call about)
    {story : Story} (hcourse : (ofDefault root).Course path body answer story) :
    (story.uses.flatMap fun use => use.2.calls) = [] ∧ (story.response.status.code = 400 ∨
      ∃ payload, Leads root path ping ∧ Payload.parse body = .ok payload ∧
        story.response = ⟨.ok, payload.text, some ping⟩) := by
  cases hcourse with
  | noEvent hmisses => exact ⟨rfl, .inl rfl⟩
  | malformed entry what hentry hbody => exact ⟨rfl, .inl rfl⟩
  | rejected entry payload why t hentry hbody hcreate =>
      obtain ⟨hmem, hpath⟩ := reaches_default_iff.mp hentry
      rcases builtin_cases answer hmem payload with
        ⟨_, hping⟩ | ⟨why', hreject⟩ | ⟨call, about, hhands⟩
      · rw [hping] at hcreate
        cases hcreate
      · rw [hreject] at hcreate
        cases hcreate
        exact ⟨rfl, .inl rfl⟩
      · exact absurd (asks_of_hands hpath hbody hhands) (h _ _ _)
  | failed entry payload handler failure t u hentry hbody hcreate hperform =>
      obtain ⟨hmem, hpath⟩ := reaches_default_iff.mp hentry
      rcases builtin_cases answer hmem payload with
        ⟨_, hping⟩ | ⟨why, hreject⟩ | ⟨call, about, hhands⟩
      · rw [hping] at hcreate
        cases hcreate
        cases hperform
      · rw [hreject] at hcreate
        cases hcreate
      · exact absurd (asks_of_hands hpath hbody hhands) (h _ _ _)
  | performed entry payload handler result t u hentry hbody hcreate hperform =>
      obtain ⟨hmem, hpath⟩ := reaches_default_iff.mp hentry
      rcases builtin_cases answer hmem payload with
        ⟨hname, hping⟩ | ⟨why, hreject⟩ | ⟨call, about, hhands⟩
      · rw [hping] at hcreate
        cases hcreate
        cases hperform
        rw [hname] at hpath
        exact ⟨rfl, .inr ⟨payload, hpath, hbody, by rw [hname]⟩⟩
      · rw [hreject] at hcreate
        cases hcreate
      · exact absurd (asks_of_hands hpath hbody hhands) (h _ _ _)

variable (root path body)

theorem exists_served : ∃ call?,
    Served root answer (path, body)
      (call?, (((ofDefault root).dispatch path body).run answer).1) ∧
    (((ofDefault root).dispatch path body).run answer).2.calls = call?.toList := by
  by_cases hasks : ∃ event call about, Asks root path body event call about
  · obtain ⟨event, call, about, h⟩ := hasks
    exact ⟨some call, served_of_asks answer h⟩
  · have hnone : ∀ event call about, ¬Asks root path body event call about :=
      fun event call about h => hasks ⟨event, call, about, h⟩
    obtain ⟨story, hcourse⟩ := (ofDefault root).exists_course path body answer
    obtain ⟨hcalls, hresponse⟩ := course_of_not_asks answer hnone hcourse
    rw [hcourse.run, Story.calls_trace, hcalls]
    refine ⟨none, ⟨?_, ?_, ?_, fun _ => hresponse⟩, rfl⟩
    · intro call
      constructor
      · intro hcall
        cases hcall
      · rintro ⟨event, about, h⟩
        exact absurd h (hnone event call about)
    · intro event call about outcomes h
      exact absurd h (hnone event call about)
    · intro event call about failure h
      exact absurd h (hnone event call about)

/-- The scheduler is asked for nothing but what the request asks for. -/
theorem asks_of_mem_calls {call : Call}
    (h : call ∈ (((ofDefault root).dispatch path body).run answer).2.calls) :
    ∃ event about, Asks root path body event call about := by
  obtain ⟨call?, hserved, hcalls⟩ := exists_served root path body answer
  rw [hcalls, Option.mem_toList] at h
  exact (hserved.call call).mp h

/-- Dispatches requests, each with a path and a body, one after another. -/
def dispatchAll (d : Dispatcher) : List (String × String) → Task (List Response)
  | [] => return []
  | (path, body) :: requests => do
    let response ← d.dispatch path body
    let responses ← dispatchAll d requests
    return response :: responses

/-- The scheduler is asked by each request of a run once at most, and in the order of the requests. -/
theorem default_calls (requests : List (String × String)) :
    ∃ served : List (Option Call × Response),
      List.Forall₂ (Served root answer) requests served ∧
      (((ofDefault root).dispatchAll requests).run answer).1 = served.map Prod.snd ∧
      (((ofDefault root).dispatchAll requests).run answer).2.calls = served.filterMap Prod.fst := by
  induction requests with
  | nil => exact ⟨[], .nil, rfl, rfl⟩
  | cons request requests ih =>
      obtain ⟨path, body⟩ := request
      obtain ⟨call?, hserved, hcalls⟩ := exists_served root path body answer
      obtain ⟨served, hall, hresponses, hrest⟩ := ih
      refine ⟨_, .cons hserved hall, ?_, ?_⟩
      · rw [dispatchAll, Task.run_bind, Task.run_bind, List.map_cons, ← hresponses]
        rfl
      · rw [dispatchAll, Task.run_bind, Task.run_bind, Trace.calls_append, Trace.calls_append, hcalls,
          hrest]
        cases call? with
        | none => simp
        | some call => simp

end Dispatcher

end BuildHooks
