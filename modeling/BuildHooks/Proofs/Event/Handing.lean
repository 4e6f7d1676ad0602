import BuildHooks.Proofs.Event.Builtin
import BuildHooks.Proofs.Json.RoundTrip
import BuildHooks.Proofs.Payload.Field
import BuildHooks.Proofs.Push.Extract
import BuildHooks.Proofs.Task.Run

/-! Three of the events that are there from the start hand arguments to the scheduler. When their factory
accepts a payload the handler asks the scheduler once, for just these arguments, and the answer is made
of the outcomes; nothing is asked before. The fourth event, the ping, asks nothing and never fails. -/

namespace BuildHooks.Event

/-- The factory accepts the payload, and its handler asks the scheduler for this and tells this about it
under the name of the event. -/
inductive Hands : Factory → Payload → String → Call → Json.Members → Prop where
  | codePushed (payload : Payload) (push : Push) (h : Push.ofNotification payload = .ok push) :
      Hands codePushedFactory payload gitCodePushed (.push push) [("commit", .string push.commit)]
  | push (payload : Payload) (push : Push) (h : Push.ofFlat payload = .ok push) :
      Hands pushFactory payload gitPush (.push push) [("commit", .string push.commit)]
  | pullRequest (payload : Payload) (r : PullRequest) (h : PullRequest.ofNotification payload = .ok r) :
      Hands mergeCommitFactory payload pullRequestMergeCommitCreated (.pullRequest r)
        [("pullRequestId", Json.ofNat r.number), ("commit", .string r.push.commit)]

variable (answer : Call → List Log.Record × Reply)

/-- The handler asks the scheduler once, for this. It answers with the outcomes, or fails. -/
def Asking (handler : Handler) (payload : Payload) (event : String) (call : Call)
    (about : Json.Members) : Prop :=
  ((handler payload).run answer).2.calls = [call] ∧
    (∀ outcomes, (answer call).2 = .ok outcomes →
      ((handler payload).run answer).1 = .ok (triggered event about outcomes)) ∧
    (∀ failure, (answer call).2 = .error failure →
      ∃ context, ((handler payload).run answer).1 = .error (failure.within context))

/-- A handler that asks first of all, and then goes on without asking. -/
theorem asking_of_call {handler : Handler} {payload : Payload} {event : String} {call : Call}
    {about : Json.Members} {goOn : Reply → Task (Except Failure Payload)}
    (hhandler : handler payload = Task.call call >>= goOn)
    (hok : ∀ outcomes, ((goOn (.ok outcomes)).run answer).1 = .ok (triggered event about outcomes))
    (herror : ∀ failure, ∃ context,
      ((goOn (.error failure)).run answer).1 = .error (failure.within context))
    (hcalls : ∀ reply, ((goOn reply).run answer).2.calls = []) :
    Asking answer handler payload event call about := by
  unfold Asking
  rw [hhandler, Task.run_bind, Task.run_call]
  refine ⟨?_, ?_, ?_⟩
  · rw [Trace.calls_append, Task.calls_asked, hcalls, List.append_nil]
  · intro outcomes hreply
    simp only [hreply]
    exact hok outcomes
  · intro failure hreply
    simp only [hreply]
    exact herror failure

theorem pushHandler_asking (event : String) (push : Push) (payload : Payload) :
    Asking answer (pushHandler event push) payload event (.push push)
      [("commit", .string push.commit)] := by
  refine asking_of_call answer rfl (fun outcomes => rfl) (fun failure => ⟨_, rfl⟩) fun reply => ?_
  cases reply with
  | error failure => rfl
  | ok outcomes => rfl

theorem pullRequestHandler_asking (r : PullRequest) (payload : Payload) :
    Asking answer (pullRequestHandler r) payload pullRequestMergeCommitCreated (.pullRequest r)
      [("pullRequestId", Json.ofNat r.number), ("commit", .string r.push.commit)] := by
  refine asking_of_call answer rfl (fun outcomes => rfl) (fun failure => ⟨_, rfl⟩) fun reply => ?_
  cases reply with
  | error failure => rfl
  | ok outcomes => rfl

/-- A handler that is made after a note of one record at most. -/
theorem run_create_after_note (note : Option Log.Record) (handler : Handler) :
    ∃ t : Trace, (do Task.writeSome note; return .ok handler :
        Task (Except Payload.Rejection Handler)).run answer = (.ok handler, t) ∧ t.calls = [] := by
  cases note with
  | none => exact ⟨_, rfl, rfl⟩
  | some record => exact ⟨_, rfl, rfl⟩

theorem Hands.create {factory : Factory} {payload : Payload} {event : String} {call : Call}
    {about : Json.Members} (h : Hands factory payload event call about) :
    ∃ handler t, (factory.create payload).run answer = (.ok handler, t) ∧ t.calls = [] ∧
      Asking answer handler payload event call about := by
  cases h with
  | codePushed _ push h =>
      obtain ⟨t, hrun, hcalls⟩ :=
        run_create_after_note answer push.addressNote? (pushHandler gitCodePushed push)
      refine ⟨_, t, ?_, hcalls, pushHandler_asking answer gitCodePushed push payload⟩
      simp only [codePushedFactory, h]
      exact hrun
  | push _ push h =>
      refine ⟨_, .empty, ?_, rfl, pushHandler_asking answer gitPush push payload⟩
      simp only [pushFactory, h]
      rfl
  | pullRequest _ r h =>
      obtain ⟨t, hrun, hcalls⟩ :=
        run_create_after_note answer r.push.addressNote? (pullRequestHandler r)
      refine ⟨_, t, ?_, hcalls, pullRequestHandler_asking answer r payload⟩
      simp only [mergeCommitFactory, h]
      exact hrun

/-- What is handed on is determined by the payload. -/
theorem Hands.eq {factory : Factory} {payload : Payload} {event : String} {call call' : Call}
    {about about' : Json.Members} (h : Hands factory payload event call about)
    (h' : Hands factory payload event call' about') : call' = call ∧ about' = about := by
  -- a scheduler that always replies shows both the call and what the answer is about
  obtain ⟨handler, t, hrun, _, hcalls, hok, _⟩ := h.create fun _ => ([], .ok [])
  obtain ⟨handler', t', hrun', _, hcalls', hok', _⟩ := h'.create fun _ => ([], .ok [])
  rw [hrun] at hrun'
  cases hrun'
  rw [hcalls] at hcalls'
  cases hcalls'
  have htriggered := hok [] rfl
  rw [hok' [] rfl] at htriggered
  exact ⟨rfl, (List.cons.inj (List.append_cancel_right (Except.ok.inj htriggered))).2⟩

/-- A ping is answered with its payload, and the other events either refuse a payload and show nothing,
or hand something to the scheduler. -/
theorem builtin_cases {name : String} {factory : Factory} (h : (name, factory) ∈ builtins)
    (payload : Payload) :
    (name = ping ∧ (factory.create payload).run answer = (.ok fun p => .done (.ok p), .empty)) ∨
      (∃ why, (factory.create payload).run answer = (.error why, .empty)) ∨
      ∃ call about, Hands factory payload name call about := by
  simp only [builtins, List.mem_cons, List.not_mem_nil, or_false, Prod.mk.injEq] at h
  rcases h with ⟨rfl, rfl⟩ | ⟨rfl, rfl⟩ | ⟨rfl, rfl⟩ | ⟨rfl, rfl⟩
  · exact .inl ⟨rfl, rfl⟩
  · cases hpush : Push.ofNotification payload with
    | error why =>
        refine .inr (.inl ⟨why, ?_⟩)
        simp only [codePushedFactory, hpush]
        rfl
    | ok push => exact .inr (.inr ⟨_, _, .codePushed payload push hpush⟩)
  · cases hpush : Push.ofFlat payload with
    | error why =>
        refine .inr (.inl ⟨why, ?_⟩)
        simp only [pushFactory, hpush]
        rfl
    | ok push => exact .inr (.inr ⟨_, _, .push payload push hpush⟩)
  · cases hr : PullRequest.ofNotification payload with
    | error why =>
        refine .inr (.inl ⟨why, ?_⟩)
        simp only [mergeCommitFactory, hr]
        rfl
    | ok r => exact .inr (.inr ⟨_, _, .pullRequest payload r hr⟩)

/-- The answer of an event that triggered jobs is read back from its text. -/
theorem Hands.parse_triggered {factory : Factory} {payload : Payload} {event : String} {call : Call}
    {about : Json.Members} (h : Hands factory payload event call about) {text : String}
    (hparse : Payload.parse text = .ok payload) (outcomes : List Outcome) :
    Payload.parse (triggered event about outcomes).text = .ok (triggered event about outcomes) := by
  have hmessages : Json.Fits Json.Number.Exact 126
      (.array (outcomes.map fun o => .string o.message)) := by
    refine .array 125 _ fun x hx => ?_
    obtain ⟨o, _, rfl⟩ := List.mem_map.mp hx
    exact .string _ _
  refine Payload.parse_text (.object 126 _ ?_ ?_)
  · cases h <;> simp [triggered]
  · intro m hm
    unfold triggered at hm
    rw [List.mem_append, List.mem_cons, List.mem_singleton] at hm
    rcases hm with (rfl | hm) | rfl
    · exact .string _ _
    · cases h with
      | codePushed _ push h =>
          cases List.mem_singleton.mp hm
          exact .string _ _
      | push _ push h =>
          cases List.mem_singleton.mp hm
          exact .string _ _
      | pullRequest _ r h =>
          rcases List.mem_cons.mp hm with rfl | hm
          · have hlt := Payload.requiredPositive_lt hparse
              (PullRequest.requiredPositive_of_ofNotification h)
            refine .number _ _ ⟨?_, ?_⟩
            · unfold Text.signedEnd
              omega
            · exact Int.ofNat_lt.mpr hlt
          · cases List.mem_singleton.mp hm
            exact .string _ _
    · exact hmessages

end BuildHooks.Event
