import BuildHooks.Host.Server
import BuildHooks.Proofs.Task.Run

/-! How far a server goes on with a task. It uses permits and changes nothing else about itself. Where it
comes to the end of the task the result and the trace are those of the run; where it has to wait, what is
left of the task has the result of the run. It comes to the end exactly if there are replies for all that
the task asks, and where it has to wait there is none. -/

namespace BuildHooks.Host.Server

variable (s : Server) (before : Nat)

/-- There are replies for so many calls that come after `before` others in the queue. -/
def serves (asks : Nat) : Prop :=
  asks = 0 ∨ match s.site.scheduler.readiness with
    | .atOnce => True
    | .never => False
    | .onPermit => before + asks ≤ s.permits

theorem usePermit_eq : ∃ permits, s.usePermit = { s with permits } := by
  unfold usePermit
  split
  · exact ⟨_, rfl⟩
  · exact ⟨s.permits, rfl⟩

@[simp] theorem site_usePermit : s.usePermit.site = s.site := by
  obtain ⟨permits, h⟩ := s.usePermit_eq
  rw [h]

theorem serves_succ_iff (asks : Nat) :
    s.serves before (asks + 1) ↔ s.granted before = true ∧ s.usePermit.serves before asks := by
  unfold serves granted
  rw [site_usePermit]
  unfold usePermit
  cases s.site.scheduler.readiness with
  | atOnce => simp
  | never => simp
  | onPermit =>
      simp only [decide_eq_true_eq]
      omega

theorem drive_note (record : Log.Record) (next : Task Dispatch.Response) :
    s.drive before (.note record next) =
      ((s.drive before next).1, (s.drive before next).2.1,
        .ofRecord record ++ (s.drive before next).2.2) := rfl

theorem drive_measure (metric : Metric) (next : Task Dispatch.Response) :
    s.drive before (.measure metric next) =
      ((s.drive before next).1, (s.drive before next).2.1,
        .ofMetric metric ++ (s.drive before next).2.2) := rfl

theorem drive_ask_of_granted (h : s.granted before = true) (call : Call)
    (next : Reply → Task Dispatch.Response) :
    s.drive before (.ask call next) =
      ((s.usePermit.drive before (next (s.site.scheduler.answer call).2)).1,
        (s.usePermit.drive before (next (s.site.scheduler.answer call).2)).2.1,
        Task.asked s.site.scheduler.answer call ++
          (s.usePermit.drive before (next (s.site.scheduler.answer call).2)).2.2) := by
  rw [drive, if_pos h]
  rfl

theorem drive_ask_of_not_granted (h : s.granted before = false) (call : Call)
    (next : Reply → Task Dispatch.Response) :
    s.drive before (.ask call next) = (s, .waiting call next, .ofCall call) := by
  rw [drive, if_neg (by rw [h]; decide)]

/-- Only permits are used while a task goes on. -/
theorem drive_server (task : Task Dispatch.Response) :
    ∃ permits, (s.drive before task).1 = { s with permits } := by
  induction task generalizing s with
  | done r => exact ⟨s.permits, rfl⟩
  | note record next ih => exact ih s
  | measure metric next ih => exact ih s
  | ask call next ih =>
      cases hgranted : s.granted before with
      | true =>
          rw [drive_ask_of_granted s before hgranted]
          obtain ⟨permits, hpermits⟩ := ih _ s.usePermit
          obtain ⟨permits', hpermits'⟩ := s.usePermit_eq
          refine ⟨permits, ?_⟩
          rw [hpermits, hpermits']
      | false =>
          rw [drive_ask_of_not_granted s before hgranted]
          exact ⟨s.permits, rfl⟩

/-- A task that comes to its end has run. -/
theorem run_of_finished {task : Task Dispatch.Response} {r : Dispatch.Response}
    (h : (s.drive before task).2.1 = .finished r) :
    task.run s.site.scheduler.answer = (r, (s.drive before task).2.2) := by
  induction task generalizing s with
  | done r' =>
      cases h
      rfl
  | note record next ih =>
      rw [drive_note] at h ⊢
      rw [Task.run_note, ih s h]
  | measure metric next ih =>
      rw [drive_measure] at h ⊢
      rw [Task.run_measure, ih s h]
  | ask call next ih =>
      cases hgranted : s.granted before with
      | true =>
          rw [drive_ask_of_granted s before hgranted] at h ⊢
          have hrun := ih _ s.usePermit h
          rw [site_usePermit] at hrun
          rw [Task.run_ask, hrun]
      | false =>
          rw [drive_ask_of_not_granted s before hgranted] at h
          cases h

/-- What is left of a task that has to wait comes to the result of the task. -/
theorem run_of_waiting {task : Task Dispatch.Response} {call : Call}
    {next : Reply → Task Dispatch.Response}
    (h : (s.drive before task).2.1 = .waiting call next) :
    (task.run s.site.scheduler.answer).1 =
      ((next (s.site.scheduler.answer call).2).run s.site.scheduler.answer).1 := by
  induction task generalizing s with
  | done r => cases h
  | note record next' ih =>
      rw [drive_note] at h
      rw [Task.run_note]
      exact ih s h
  | measure metric next' ih =>
      rw [drive_measure] at h
      rw [Task.run_measure]
      exact ih s h
  | ask call' next' ih =>
      rw [Task.run_ask]
      cases hgranted : s.granted before with
      | true =>
          rw [drive_ask_of_granted s before hgranted] at h
          have hrun := ih _ s.usePermit h
          rw [site_usePermit] at hrun
          exact hrun
      | false =>
          rw [drive_ask_of_not_granted s before hgranted] at h
          cases h
          rfl

/-- A task waits where there is no reply for it. -/
theorem not_granted_of_waiting {task : Task Dispatch.Response} {call : Call}
    {next : Reply → Task Dispatch.Response}
    (h : (s.drive before task).2.1 = .waiting call next) :
    (s.drive before task).1.granted before = false := by
  induction task generalizing s with
  | done r => cases h
  | note record next' ih =>
      rw [drive_note] at h ⊢
      exact ih s h
  | measure metric next' ih =>
      rw [drive_measure] at h ⊢
      exact ih s h
  | ask call' next' ih =>
      cases hgranted : s.granted before with
      | true =>
          rw [drive_ask_of_granted s before hgranted] at h ⊢
          exact ih _ s.usePermit h
      | false =>
          rw [drive_ask_of_not_granted s before hgranted]
          exact hgranted

/-- A task comes to its end exactly if there is a reply for each of its calls. -/
theorem finished_iff_serves (task : Task Dispatch.Response) :
    (∃ r, (s.drive before task).2.1 = .finished r) ↔
      s.serves before (task.run s.site.scheduler.answer).2.calls.length := by
  induction task generalizing s with
  | done r => exact iff_of_true ⟨r, rfl⟩ (.inl rfl)
  | note record next ih =>
      rw [drive_note, Task.run_note, Trace.calls_append, Trace.calls_ofRecord, List.nil_append]
      exact ih s
  | measure metric next ih =>
      rw [drive_measure, Task.run_measure, Trace.calls_append, Trace.calls_ofMetric, List.nil_append]
      exact ih s
  | ask call next ih =>
      rw [Task.run_ask, Trace.calls_append, Task.calls_asked, List.singleton_append, List.length_cons,
        serves_succ_iff]
      cases hgranted : s.granted before with
      | true =>
          rw [drive_ask_of_granted s before hgranted]
          have hiff := ih (s.site.scheduler.answer call).2 s.usePermit
          rw [site_usePermit] at hiff
          rw [hiff]
          simp
      | false =>
          rw [drive_ask_of_not_granted s before hgranted]
          refine iff_of_false ?_ ?_
          · rintro ⟨r, hr⟩
            cases hr
          · rintro ⟨hfalse, _⟩
            cases hfalse

/-- A task for which there are replies comes to its end. -/
theorem drive_of_serves (task : Task Dispatch.Response)
    (h : s.serves before (task.run s.site.scheduler.answer).2.calls.length) :
    ∃ permits, s.drive before task =
      ({ s with permits }, .finished (task.run s.site.scheduler.answer).1,
        (task.run s.site.scheduler.answer).2) := by
  obtain ⟨permits, hserver⟩ := s.drive_server before task
  obtain ⟨r, hr⟩ := (s.finished_iff_serves before task).mpr h
  refine ⟨permits, Prod.ext hserver (Prod.ext ?_ ?_)⟩
  · rw [s.run_of_finished before hr]
    exact hr
  · rw [s.run_of_finished before hr]

/-- A task for which a reply is missing has to wait, and what is left of it comes to its result. -/
theorem drive_of_not_serves (task : Task Dispatch.Response)
    (h : ¬s.serves before (task.run s.site.scheduler.answer).2.calls.length) :
    ∃ permits call next t, s.drive before task = ({ s with permits }, .waiting call next, t) ∧
      (task.run s.site.scheduler.answer).1 =
        ((next (s.site.scheduler.answer call).2).run s.site.scheduler.answer).1 := by
  obtain ⟨permits, hserver⟩ := s.drive_server before task
  cases hstop : (s.drive before task).2.1 with
  | finished r => exact absurd ((s.finished_iff_serves before task).mp ⟨r, hstop⟩) h
  | waiting call next =>
      exact ⟨permits, call, next, _, Prod.ext hserver (Prod.ext hstop rfl),
        s.run_of_waiting before hstop⟩

variable (id : Nat) (fresh : String) (request : Http.Request)

/-- What is dispatched for a request. -/
def taskFor : Task Dispatch.Response :=
  s.site.dispatcher.measured (Text.Percent.decodePath request.path)
    (String.ofList (Text.Utf8.decodeLenient request.body))

/-- The response of the dispatch for a request, if all its calls are replied to, and its trace. -/
def outcomeFor : Dispatch.Response × Trace :=
  (s.taskFor request).run s.site.scheduler.answer

/-- The answer that a request is due. -/
def due : Http.Response :=
  s.site.identified request fresh (Site.dispatched (s.outcomeFor request).1)

/-- A request is accepted for dispatch. -/
def Accepts : Prop :=
  request.body.length ≤ Site.maxBody ∧ s.life.health.acceptsEvents = true

variable {s request}

theorem startEvent_of_accepts (h : s.Accepts request) :
    s.startEvent id fresh request = s.startDispatch id fresh request := by
  obtain ⟨hsize, haccepts⟩ := h
  unfold startEvent
  rw [if_neg (by omega), haccepts]
  rfl

theorem trace_startDispatch :
    (s.startDispatch id fresh request).2.2 =
      (drive s.waiting.length { s with life := s.life.acquire.2 } (s.taskFor request)).2.2 := by
  unfold startDispatch taskFor
  simp only
  split
  · next h => rw [h]
  · next h => rw [h]

/-- A request for which there are replies is answered as it is due, and its guard is taken back. -/
theorem startDispatch_of_serves
    (h : s.serves s.waiting.length (s.outcomeFor request).2.calls.length) :
    ∃ permits, s.startDispatch id fresh request =
      ({ s with permits, life := (s.life.acquire.2.release s.life.issued).2 },
        .answered (s.due fresh request), (s.outcomeFor request).2) := by
  obtain ⟨permits, hdrive⟩ :=
    drive_of_serves { s with life := s.life.acquire.2 } s.waiting.length (s.taskFor request) h
  refine ⟨permits, ?_⟩
  unfold taskFor at hdrive
  unfold startDispatch
  simp only
  rw [hdrive]
  rfl

/-- A request that is kept waiting holds a guard, and what is left of its dispatch comes to the response
of the dispatch. -/
theorem startDispatch_of_not_serves
    (h : ¬s.serves s.waiting.length (s.outcomeFor request).2.calls.length) :
    ∃ permits call next t, s.startDispatch id fresh request =
      ({ s with
          permits
          life := s.life.acquire.2
          waiting := s.waiting ++ [⟨id, request, fresh, s.life.issued, call, next⟩] }, .pending, t) ∧
      (s.outcomeFor request).1 =
        ((next (s.site.scheduler.answer call).2).run s.site.scheduler.answer).1 := by
  obtain ⟨permits, call, next, t, hdrive, hresult⟩ :=
    drive_of_not_serves { s with life := s.life.acquire.2 } s.waiting.length (s.taskFor request) h
  refine ⟨permits, call, next, t, ?_, hresult⟩
  unfold taskFor at hdrive
  unfold startDispatch
  simp only
  rw [hdrive]
  rfl

/-- There is no reply yet for a request that is kept waiting. -/
theorem not_granted_of_startDispatch
    (h : ¬s.serves s.waiting.length (s.outcomeFor request).2.calls.length) :
    (s.startDispatch id fresh request).1.granted s.waiting.length = false := by
  obtain ⟨permits, call, next, t, hdrive, _⟩ :=
    drive_of_not_serves { s with life := s.life.acquire.2 } s.waiting.length (s.taskFor request) h
  have hgranted := not_granted_of_waiting _ _ (congrArg (fun result => result.2.1) hdrive)
  rw [hdrive] at hgranted
  unfold taskFor at hdrive
  unfold startDispatch
  simp only
  rw [hdrive]
  exact hgranted

/-- What is left of the dispatch of a pending request once its call is replied to. -/
def restOf (s : Server) (p : Pending) : Task Dispatch.Response :=
  p.next (s.site.scheduler.answer p.call).2

/-- The server a pending request has left, at the moment its call is replied to. -/
def replied (s : Server) (p : Pending) : Server :=
  (s.leave p.id).usePermit

theorem replied_eq (s : Server) (p : Pending) :
    ∃ permits, s.replied p = { s with permits, waiting := s.waiting.filter fun q => q.id != p.id } :=
  (s.leave p.id).usePermit_eq

/-- A pending request whose call is replied to goes on from there. -/
theorem resume_of_granted {id before : Nat} {p : Pending}
    (hpending : s.pending? id = some (before, p)) (hid : p.id = id)
    (hgranted : s.granted before = true) :
    s.resume id =
      match (s.replied p).drive (s.replied p).waiting.length (s.restOf p) with
      | (s', .finished r, t) =>
        (s'.release p.guardNumber,
          some (.answered (s'.site.identified p.request p.fresh (Site.dispatched r))),
          { t with records := (s.site.scheduler.answer p.call).1 ++ t.records })
      | (s', .waiting call next, t) =>
        ({ s' with waiting := s'.waiting ++ [{ p with call, next }] }, some .pending,
          { t with records := (s.site.scheduler.answer p.call).1 ++ t.records }) := by
  subst hid
  unfold resume
  rw [hpending]
  simp only
  rw [if_pos hgranted]
  rfl

/-- The scheduler replies to a pending request as often as it asks. -/
def Replies (s : Server) (before : Nat) (p : Pending) : Prop :=
  s.granted before = true ∧
    (s.replied p).serves (s.replied p).waiting.length
      ((s.restOf p).run s.site.scheduler.answer).2.calls.length

/-- A pending request that is replied to is answered with what its dispatch comes to. -/
theorem resume_of_replies {id before : Nat} {p : Pending} (hpending : s.pending? id = some (before, p))
    (hid : p.id = id) (h : s.Replies before p) :
    ∃ permits t, s.resume id =
      ({ s.giveUp p with permits },
        some (.answered (s.site.identified p.request p.fresh
          (Site.dispatched ((s.restOf p).run s.site.scheduler.answer).1))), t) := by
  obtain ⟨hgranted, hserves⟩ := h
  obtain ⟨permits, hreplied⟩ := s.replied_eq p
  have hsite : (s.replied p).site = s.site := by rw [hreplied]
  rw [← hsite] at hserves
  obtain ⟨permits', hdrive⟩ := drive_of_serves _ _ _ hserves
  rw [resume_of_granted hpending hid hgranted, hdrive, hsite, hreplied]
  exact ⟨permits', _, rfl⟩

/-- A pending request that is not replied to stays, and what is left of its dispatch comes to the same
result as before. -/
theorem resume_of_not_replies {id before : Nat} {p : Pending}
    (hpending : s.pending? id = some (before, p)) (hid : p.id = id) (h : ¬s.Replies before p) :
    ((s.resume id).1 = s ∧ (s.resume id).2.1 = some .pending) ∨
      ∃ permits call next t, s.resume id =
        ({ s with
            permits
            waiting := (s.waiting.filter fun q => q.id != p.id) ++ [{ p with call, next }] },
          some .pending, t) ∧
        ((s.restOf p).run s.site.scheduler.answer).1 =
          ((next (s.site.scheduler.answer call).2).run s.site.scheduler.answer).1 := by
  cases hgranted : s.granted before with
  | false =>
      refine .inl ?_
      unfold resume
      rw [hpending]
      simp only
      rw [if_neg (by rw [hgranted]; decide)]
      exact ⟨rfl, rfl⟩
  | true =>
      refine .inr ?_
      obtain ⟨permits, hreplied⟩ := s.replied_eq p
      have hsite : (s.replied p).site = s.site := by rw [hreplied]
      have hserves := fun hserves => h ⟨hgranted, hserves⟩
      rw [← hsite] at hserves
      obtain ⟨permits', call, next, t, hdrive, hresult⟩ := drive_of_not_serves _ _ _ hserves
      rw [hsite] at hresult
      rw [resume_of_granted hpending hid hgranted, hdrive, hreplied]
      exact ⟨permits', call, next, _, rfl, hresult⟩

end BuildHooks.Host.Server
