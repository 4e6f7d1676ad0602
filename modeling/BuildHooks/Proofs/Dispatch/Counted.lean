import Mathlib.Data.List.Dedup
import Mathlib.Data.List.Perm.Subperm
import BuildHooks.Proofs.Dispatch.Spelling
import BuildHooks.Proofs.Dispatch.Tally
import BuildHooks.Proofs.Task.Yields

/-! What is counted of many requests that go through one dispatcher side by side. Requests come in, go on
as far as they can, are replied to, are done or are dropped, in any order. The measured dispatcher takes
the same course as the bare one and gives the same responses; what it measures besides is one count and
one duration for each response, made at the moment the response is there. A dropped request never gets
that far. -/

namespace BuildHooks

open Dispatch

namespace Dispatch

/-- A request that is being dispatched. -/
structure Running where
  path : String
  task : Task Response

/-- A request that got its response. -/
structure Completed where
  path : String
  response : Response
deriving DecidableEq, Repr

/-- Requests on their way, those that are done, and what was measured so far. -/
structure Traffic where
  running : List Running
  completed : List Completed
  metrics : List Metric

/-- What can happen to the requests. Those that are on their way are called by their places. -/
inductive Move where
  | arrive (path body : String)
  /-- A request goes on until it is done or has to wait. -/
  | poll (place : Nat)
  /-- The scheduler replies to a request that waits, which then goes on. -/
  | reply (place : Nat) (reply : Reply)
  | drop (place : Nat)

namespace Traffic

def empty : Traffic :=
  ⟨[], [], []⟩

/-- Goes on with a request that has come to a task. -/
def settle (t : Traffic) (place : Nat) (path : String) (task : Task Response) : Traffic :=
  match task.settle with
  | (metrics, .finished response) =>
    { running := t.running.eraseIdx place
      completed := t.completed ++ [⟨path, response⟩]
      metrics := t.metrics ++ metrics }
  | (metrics, .waiting call next) =>
    { t with
      running := t.running.set place ⟨path, .ask call next⟩
      metrics := t.metrics ++ metrics }

/-- One move, where `serve` dispatches a body by its path. -/
def move (serve : String → String → Task Response) (t : Traffic) : Move → Traffic
  | .arrive path body => { t with running := t.running ++ [⟨path, serve path body⟩] }
  | .poll place =>
    match t.running[place]? with
    | some ⟨path, task⟩ => t.settle place path task
    | none => t
  | .reply place reply =>
    match t.running[place]? with
    | some ⟨path, .ask _ next⟩ => t.settle place path (next reply)
    | _ => t
  | .drop place => { t with running := t.running.eraseIdx place }

/-- All that becomes of some moves. -/
def after (serve : String → String → Task Response) (moves : List Move) : Traffic :=
  moves.foldl (move serve) empty

end Traffic

/-! ### The measured course beside the bare one -/

/-- What is measured of a response. -/
def Response.samples (r : Response) : List Metric :=
  [.dispatched r.label r.status.outcome, .duration r.label]

/-- What is measured of the requests that are done. -/
def samples (completed : List Completed) : List Metric :=
  completed.flatMap fun c => c.response.samples

/-- A request whose response will be measured. -/
def Running.measured (r : Running) : Running :=
  ⟨r.path, r.task >>= Response.measured⟩

/-- A task that measures its response goes on like the task, and measures the response at its end. -/
theorem settle_measured (task : Task Response) :
    (task >>= Response.measured).settle =
      match task.settle with
      | (metrics, .finished r) => (metrics ++ r.samples, .finished r)
      | (metrics, .waiting call next) =>
        (metrics, .waiting call fun reply => next reply >>= Response.measured) := by
  change (task.bind Response.measured).settle = _
  induction task with
  | done r => rfl
  | note record next ih => exact ih
  | measure metric next ih =>
      rw [Task.bind, Task.settle, Task.settle, ih]
      generalize next.settle = settled
      obtain ⟨metrics, stop⟩ := settled
      cases stop <;> rfl
  | ask call next ih => rfl

/-- The measured course has come as far as the bare one. -/
structure Mirrors (bare measured : Traffic) : Prop where
  running : measured.running = bare.running.map Running.measured
  completed : measured.completed = bare.completed
  metrics : measured.metrics.Perm (bare.metrics ++ samples bare.completed)

namespace Mirrors

variable {bare measured : Traffic}

theorem map_eraseIdx (rs : List Running) (place : Nat) :
    (rs.map Running.measured).eraseIdx place = (rs.eraseIdx place).map Running.measured := by
  rw [List.eraseIdx_eq_take_drop_succ, List.eraseIdx_eq_take_drop_succ, List.map_append,
    List.map_take, List.map_drop]

/-- What is measured on the way stands before what is measured of the responses. -/
theorem metrics_append (h : Mirrors bare measured) (metrics more : List Metric) :
    (measured.metrics ++ (metrics ++ more)).Perm
      (bare.metrics ++ metrics ++ (samples bare.completed ++ more)) := by
  refine (h.metrics.append_right _).trans ?_
  rw [List.append_assoc, List.append_assoc]
  exact (List.perm_append_comm_assoc _ _ _).append_left _

theorem settle (h : Mirrors bare measured) (place : Nat) (path : String) (task : Task Response) :
    Mirrors (bare.settle place path task)
      (measured.settle place path (task >>= Response.measured)) := by
  unfold Traffic.settle
  rw [settle_measured]
  obtain ⟨metrics, stop⟩ := task.settle
  cases stop with
  | finished r =>
      refine ⟨?_, ?_, ?_⟩
      · simp only
        rw [h.running, map_eraseIdx]
      · simp only
        rw [h.completed]
      · have hsamples : samples (bare.completed ++ [⟨path, r⟩]) =
            samples bare.completed ++ r.samples := by
          unfold samples
          rw [List.flatMap_append, List.flatMap_singleton]
        simp only
        rw [hsamples]
        exact h.metrics_append metrics r.samples
  | waiting call next =>
      refine ⟨?_, h.completed, ?_⟩
      · simp only
        rw [h.running, List.map_set]
        rfl
      · have hmetrics := h.metrics_append metrics []
        rw [List.append_nil, List.append_nil] at hmetrics
        exact hmetrics

/-- One move keeps the measured course beside the bare one. -/
theorem move (h : Mirrors bare measured) (d : Dispatcher) (m : Move) :
    Mirrors (bare.move d.dispatch m) (measured.move d.measured m) := by
  cases m with
  | arrive path body =>
      refine ⟨?_, h.completed, h.metrics⟩
      change measured.running ++ _ = (bare.running ++ _).map Running.measured
      rw [h.running, List.map_append]
      rfl
  | poll place =>
      unfold Traffic.move
      simp only
      rw [h.running, List.getElem?_map]
      cases bare.running[place]? with
      | none => exact h
      | some r => exact h.settle place r.path r.task
  | reply place reply =>
      unfold Traffic.move
      simp only
      rw [h.running, List.getElem?_map]
      cases bare.running[place]? with
      | none => exact h
      | some r =>
          obtain ⟨path, task⟩ := r
          -- a request that does not wait is not replied to, and measuring it makes it no other
          cases task with
          | done r => exact h
          | note record next => exact h
          | measure metric next => exact h
          | ask call next => exact h.settle place path (next reply)
  | drop place =>
      refine ⟨?_, h.completed, h.metrics⟩
      change measured.running.eraseIdx place = (bare.running.eraseIdx place).map Running.measured
      rw [h.running, map_eraseIdx]

end Mirrors

/-- The measured dispatcher takes the course of the bare one. -/
theorem mirrors_after (d : Dispatcher) (moves : List Move) :
    Mirrors (Traffic.after d.dispatch moves) (Traffic.after d.measured moves) := by
  have hfrom : ∀ bare measured : Traffic, Mirrors bare measured →
      Mirrors (moves.foldl (Traffic.move d.dispatch) bare)
        (moves.foldl (Traffic.move d.measured) measured) := by
    induction moves with
    | nil => exact fun _ _ h => h
    | cons m moves ih => exact fun bare measured h => ih _ _ (h.move d m)
  exact hfrom .empty .empty ⟨rfl, rfl, .refl _⟩

end Dispatch

namespace Dispatcher

open Event

variable (d : Dispatcher)

/-- The response to a request for a path is that of the event that the path leads to. -/
def Resolves (path : String) (r : Response) : Prop :=
  r.event = (d.resolve? path).map Entry.name ∧ (r.event = none → r.status = .badRequest)

theorem yields_perform (path body : String) (entry : Entry)
    (h : d.resolve? path = some entry) : (perform path body entry).Yields (d.Resolves path) := by
  have hrefuse : ∀ problem : Problem, (problem.refuse path entry.name).Yields (d.Resolves path) :=
    fun problem => ⟨by rw [h]; rfl, fun hnone => by cases hnone⟩
  unfold perform
  cases Payload.parse body with
  | error what => exact hrefuse _
  | ok payload =>
      refine Task.yields_bind _ fun created => ?_
      cases created with
      | error why => exact hrefuse _
      | ok handler =>
          refine Task.yields_bind _ fun result => ?_
          cases result with
          | error failure => exact hrefuse _
          | ok result => exact ⟨by rw [h]; rfl, fun hnone => by cases hnone⟩

theorem yields_dispatch (path body : String) : (d.dispatch path body).Yields (d.Resolves path) := by
  unfold dispatch
  cases h : d.resolve? path with
  | none => exact ⟨by rw [h]; rfl, fun _ => rfl⟩
  | some entry => exact d.yields_perform path body entry h

/-- All responses of the requests, and those they can still get, are of the events their paths lead
to. -/
structure Resolved (t : Traffic) : Prop where
  running : ∀ r ∈ t.running, r.task.Yields (d.Resolves r.path)
  completed : ∀ c ∈ t.completed, d.Resolves c.path c.response

variable {d}

namespace Resolved

variable {t : Traffic}

theorem settle (h : d.Resolved t) (place : Nat) {path : String} {task : Task Response}
    (htask : task.Yields (d.Resolves path)) : d.Resolved (t.settle place path task) := by
  have hstop := Task.yields_settle htask
  unfold Traffic.settle
  generalize task.settle = settled at hstop ⊢
  obtain ⟨metrics, stop⟩ := settled
  cases stop with
  | finished r =>
      refine ⟨fun q hq => h.running q (List.mem_of_mem_eraseIdx hq), ?_⟩
      exact List.forall_mem_append.mpr ⟨h.completed, List.forall_mem_singleton.mpr hstop⟩
  | waiting call next =>
      refine ⟨fun q hq => ?_, h.completed⟩
      rcases List.mem_or_eq_of_mem_set hq with hold | rfl
      · exact h.running q hold
      · exact hstop

theorem move (h : d.Resolved t) (m : Move) : d.Resolved (t.move d.dispatch m) := by
  cases m with
  | arrive path body =>
      exact ⟨List.forall_mem_append.mpr
        ⟨h.running, List.forall_mem_singleton.mpr (d.yields_dispatch path body)⟩, h.completed⟩
  | poll place =>
      unfold Traffic.move
      simp only
      cases hplace : t.running[place]? with
      | none => exact h
      | some r => exact h.settle place (h.running r (List.mem_of_getElem? hplace))
  | reply place reply =>
      unfold Traffic.move
      simp only
      cases hplace : t.running[place]? with
      | none => exact h
      | some r =>
          obtain ⟨path, task⟩ := r
          have hyields := h.running _ (List.mem_of_getElem? hplace)
          cases task with
          | done r => exact h
          | note record next => exact h
          | measure metric next => exact h
          | ask call next => exact h.settle place (hyields reply)
  | drop place => exact ⟨fun q hq => h.running q (List.mem_of_mem_eraseIdx hq), h.completed⟩

end Resolved

theorem resolved_after (d : Dispatcher) (moves : List Move) :
    d.Resolved (Traffic.after d.dispatch moves) := by
  have hfrom : ∀ t : Traffic, d.Resolved t →
      d.Resolved (moves.foldl (Traffic.move d.dispatch) t) := by
    induction moves with
    | nil => exact fun _ h => h
    | cons m moves ih => exact fun t h => ih _ (h.move m)
  exact hfrom .empty ⟨List.forall_mem_nil _, List.forall_mem_nil _⟩

/-! ### What the counts come to -/

/-- The outcomes by the codes of the responses that have them. -/
def outcomes : List (String × Nat) :=
  [("ok", 200), ("client_error", 400), ("server_error", 500)]

/-- A request that is done came to an event, or to none for `unknown`, and to an outcome. -/
def countsAs (d : Dispatcher) (event outcome : String) (c : Completed) : Bool :=
  (match d.resolve? c.path with
    | some entry => entry.name == event
    | none => event == "unknown") &&
  outcomes.contains (outcome, c.response.status.code)

/-- A tally counts the requests that are done, and no others. -/
structure Counted (d : Dispatcher) (completed : List Completed) (t : Tally) : Prop where
  resolved : ∀ c ∈ completed, c.response.event = (d.resolve? c.path).map Entry.name
  counters : ∀ event outcome,
    t.count (.dispatched event outcome) = completed.countP (d.countsAs event outcome)
  /-- Of each event as many durations are there as requests were counted. -/
  durations : ∀ event,
    t.count (.duration event) = t.total fun m => m.isDispatched && m.event == event
  counters_total : t.total Metric.isDispatched = completed.length
  durations_total : t.total (fun m => !m.isDispatched) = completed.length
  unknown : ∀ outcome, 0 < t.count (.dispatched "unknown" outcome) → outcome = "client_error"
  labels : ∀ e ∈ t, e.1.event = "unknown" ∨ e.1.event ∈ d.registry.toList.map Entry.name
  few : (t.map fun e => e.1.event).dedup.length ≤ d.registry.size + 1

theorem mem_toList_of_resolve? {path : String} {entry : Entry} (h : d.resolve? path = some entry) :
    entry ∈ d.registry.toList := by
  unfold resolve? at h
  split at h
  · split at h
    · cases h
    · obtain ⟨e, he, rfl⟩ := Option.map_eq_some_iff.mp h
      exact List.mem_map_of_mem (List.mem_of_find?_eq_some he)
  · cases h

/-- Something is counted once for each request that is done and of which it is measured once. -/
theorem countP_samples {completed : List Completed} {p : Metric → Bool} {q : Completed → Bool}
    (h : ∀ c ∈ completed, c.response.samples.countP p = if q c then 1 else 0) :
    (samples completed).countP p = completed.countP q := by
  induction completed with
  | nil => rfl
  | cons c completed ih =>
      have hrest := ih fun c' hc' => h c' (List.mem_cons_of_mem _ hc')
      have hcons : samples (c :: completed) = c.response.samples ++ samples completed := rfl
      rw [hcons, List.countP_append, h c List.mem_cons_self, hrest, List.countP_cons, Nat.add_comm]

theorem contains_outcomes (status : Status) (outcome : String) :
    outcomes.contains (outcome, status.code) = decide (status.outcome = outcome) := by
  rw [Bool.eq_iff_iff, List.contains_iff_mem, decide_eq_true_eq, eq_comm (a := status.outcome)]
  unfold outcomes
  cases status <;> simp [Status.code, Status.outcome]

variable {completed : List Completed}

/-- Under which event a response is counted. -/
theorem label_eq {path : String} {r : Response} (h : d.Resolves path r) :
    r.label = match d.resolve? path with
      | some entry => entry.name
      | none => "unknown" := by
  unfold Response.label
  rw [h.1]
  cases d.resolve? path <;> rfl

theorem countsAs_iff {c : Completed} (h : d.Resolves c.path c.response) (event outcome : String) :
    d.countsAs event outcome c = true ↔
      c.response.label = event ∧ c.response.status.outcome = outcome := by
  unfold countsAs
  rw [contains_outcomes, label_eq h, Bool.and_eq_true, decide_eq_true_eq]
  cases d.resolve? c.path with
  | some entry => rw [beq_iff_eq]
  | none => rw [beq_iff_eq, eq_comm (a := event)]

/-- A response is labelled with a registered name, unless there is no event. -/
theorem label_cases {c : Completed} (h : d.Resolves c.path c.response) :
    c.response.label = "unknown" ∨ c.response.label ∈ d.registry.toList.map Entry.name := by
  rw [label_eq h]
  cases hresolve : d.resolve? c.path with
  | some entry => exact .inr (List.mem_map_of_mem (mem_toList_of_resolve? hresolve))
  | none => exact .inl rfl

/-- Where no event is called `unknown`, it stands for refused requests alone. -/
theorem outcome_of_unknown (hnames : ∀ entry ∈ d.registry.toList, entry.name ≠ "unknown")
    {c : Completed} (h : d.Resolves c.path c.response) (hlabel : c.response.label = "unknown") :
    c.response.status.outcome = "client_error" := by
  rw [label_eq h] at hlabel
  cases hresolve : d.resolve? c.path with
  | some entry =>
      rw [hresolve] at hlabel
      exact absurd hlabel (hnames entry (mem_toList_of_resolve? hresolve))
  | none =>
      have hevent := h.1
      rw [hresolve] at hevent
      rw [h.2 hevent]
      rfl

theorem event_of_mem_samples {m : Metric} (h : m ∈ samples completed) :
    ∃ c ∈ completed, m.event = c.response.label := by
  obtain ⟨c, hc, hm⟩ := List.mem_flatMap.mp h
  refine ⟨c, hc, ?_⟩
  rcases List.mem_cons.mp hm with rfl | hm
  · rfl
  · rw [List.mem_singleton.mp hm]
    rfl

section

variable {metrics : List Metric} (h : metrics.Perm (samples completed))

include h

theorem count_dispatched (hresolved : ∀ c ∈ completed, d.Resolves c.path c.response)
    (event outcome : String) : (Tally.ofList metrics).count (.dispatched event outcome) =
      completed.countP (d.countsAs event outcome) := by
  rw [Tally.count_ofList, h.countP_eq]
  refine countP_samples fun c hc => ?_
  have hiff := countsAs_iff (hresolved c hc) event outcome
  by_cases hcounts : d.countsAs event outcome c = true
  · obtain ⟨hlabel, houtcome⟩ := hiff.mp hcounts
    rw [if_pos hcounts]
    simp [Response.samples, hlabel, houtcome]
  · rw [if_neg hcounts]
    rw [hiff] at hcounts
    simpa [Response.samples] using hcounts

theorem count_duration (event : String) : (Tally.ofList metrics).count (.duration event) =
    (Tally.ofList metrics).total fun m => m.isDispatched && m.event == event := by
  rw [Tally.count_ofList, Tally.total_ofList, h.countP_eq, h.countP_eq,
    countP_samples (q := fun c => c.response.label == event), countP_samples]
  · intro c _
    simp [Response.samples, Metric.isDispatched, Metric.event, List.countP_cons]
  · intro c _
    simp [Response.samples, List.countP_cons]

theorem label_of_mem_tally (hresolved : ∀ c ∈ completed, d.Resolves c.path c.response)
    {e : Metric × Nat} (he : e ∈ Tally.ofList metrics) :
    e.1.event = "unknown" ∨ e.1.event ∈ d.registry.toList.map Entry.name := by
  have hmem := h.mem_iff.mp (Tally.mem_ofList_iff.mp (List.mem_map_of_mem he))
  obtain ⟨c, hc, hevent⟩ := event_of_mem_samples hmem
  rw [hevent]
  exact label_cases (hresolved c hc)

theorem counted_of_perm (hnames : ∀ entry ∈ d.registry.toList, entry.name ≠ "unknown")
    (hresolved : ∀ c ∈ completed, d.Resolves c.path c.response) :
    d.Counted completed (Tally.ofList metrics) where
  resolved c hc := (hresolved c hc).1
  counters := count_dispatched h hresolved
  durations := count_duration h
  counters_total := by
    rw [Tally.total_ofList, h.countP_eq, countP_samples (q := fun _ => true) fun _ _ => rfl,
      List.countP_true]
  durations_total := by
    rw [Tally.total_ofList, h.countP_eq, countP_samples (q := fun _ => true) fun _ _ => rfl,
      List.countP_true]
  unknown := by
    intro outcome hpos
    rw [count_dispatched h hresolved, List.countP_pos_iff] at hpos
    obtain ⟨c, hc, hcounts⟩ := hpos
    obtain ⟨hlabel, houtcome⟩ := (countsAs_iff (hresolved c hc) _ _).mp hcounts
    rw [← houtcome]
    exact outcome_of_unknown hnames (hresolved c hc) hlabel
  labels _ he := label_of_mem_tally h hresolved he
  few := by
    have hsubset : ((Tally.ofList metrics).map fun e => e.1.event).dedup ⊆
        "unknown" :: d.registry.toList.map Entry.name := by
      intro label hlabel
      obtain ⟨e, he, rfl⟩ := List.mem_map.mp (List.mem_dedup.mp hlabel)
      exact List.mem_cons.mpr (label_of_mem_tally h hresolved he)
    have hlength := (List.subperm_of_subset (List.nodup_dedup _) hsubset).length_le
    rw [List.length_cons, List.length_map] at hlength
    unfold Registry.toList at hlength
    rw [List.length_map] at hlength
    exact hlength

end

/-- Whatever becomes of the requests to a dispatcher, measuring it leaves the responses as they are, and
what it measures besides counts the requests that are done. -/
theorem traffic_counted (d : Dispatcher) (hnames : ∀ entry ∈ d.registry.toList, entry.name ≠ "unknown")
    (moves : List Move) :
    (Traffic.after d.measured moves).completed = (Traffic.after d.dispatch moves).completed ∧
    ∃ own, (Traffic.after d.measured moves).metrics.Perm
        ((Traffic.after d.dispatch moves).metrics ++ own) ∧
      d.Counted (Traffic.after d.measured moves).completed (Tally.ofList own) ∧
      -- where the events measure nothing themselves, that is all there is
      ((Traffic.after d.dispatch moves).metrics = [] →
        d.Counted (Traffic.after d.measured moves).completed
          (Tally.ofList (Traffic.after d.measured moves).metrics)) := by
  have hmirrors := mirrors_after d moves
  have hresolved := (resolved_after d moves).completed
  rw [hmirrors.completed]
  refine ⟨rfl, samples _, hmirrors.metrics, counted_of_perm (.refl _) hnames hresolved,
    fun hnone => counted_of_perm ?_ hnames hresolved⟩
  have hperm := hmirrors.metrics
  rw [hnone] at hperm
  exact hperm

/-- A push with what it has to have. -/
def leanPush : String :=
  "\x7b\"collectionUri\":\"c\",\"repoUri\":\"r\",\"projectId\":\"p\",\"repoId\":\"i\",\"commit\":\"1f\"\x7d"

/-- A ping, a request for nothing that is registered, and two pushes: the first one is dropped while it
waits, and the other one learns that there is no scheduler. -/
def mixedMoves : List Move :=
  [.arrive "/events/PING" "\x7b\x7d", .arrive "/events/gitPush" leanPush,
    .arrive "/events/nothing" "\x7b\x7d", .arrive "/events/gitPush" leanPush,
    .poll 1, .poll 0, .poll 2, .drop 0, .poll 0, .reply 0 (.error (.of "no scheduler"))]

theorem traffic_counted_mixed :
    let t := Traffic.after (ofDefault "events").measured mixedMoves
    (∀ entry ∈ (ofDefault "events").registry.toList, entry.name ≠ "unknown") ∧
    t.completed.map Completed.path = ["/events/PING", "/events/nothing", "/events/gitPush"] ∧
    Tally.ofList t.metrics =
      [(.dispatched "ping" "ok", 1), (.duration "ping", 1),
        (.dispatched "unknown" "client_error", 1), (.duration "unknown", 1),
        (.dispatched "gitPush" "server_error", 1), (.duration "gitPush", 1)] ∧
    t.completed = (Traffic.after (ofDefault "events").dispatch mixedMoves).completed ∧
    (ofDefault "events").Counted t.completed (Tally.ofList t.metrics) := by
  have hnames : ∀ entry ∈ (ofDefault "events").registry.toList, entry.name ≠ "unknown" := by
    decide +kernel
  have hmetrics : (Traffic.after (ofDefault "events").dispatch mixedMoves).metrics = [] := by
    decide +kernel
  obtain ⟨hcompleted, own, _, _, hcounted⟩ := traffic_counted (ofDefault "events") hnames mixedMoves
  exact ⟨hnames, by decide +kernel, by decide +kernel, hcompleted, hcounted hmetrics⟩

end Dispatcher

end BuildHooks
