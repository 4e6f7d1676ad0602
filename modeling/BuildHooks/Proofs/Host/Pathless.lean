import BuildHooks.Host.Step
import BuildHooks.Proofs.Host.Driving

/-! What the path of a request is good for once it was started: nothing. Servers whose pending requests
differ in their paths alone cannot be told apart, whatever happens to them. Each step keeps them alike
and shows the same of both, and so do any steps one after another. -/

namespace BuildHooks.Host

/-- A pending request without its path. -/
def Pending.pathless (p : Pending) : Pending :=
  { p with request := { p.request with path := "" } }

@[simp] theorem Pending.call_pathless (p : Pending) : p.pathless.call = p.call := rfl

@[simp] theorem Pending.next_pathless (p : Pending) : p.pathless.next = p.next := rfl

namespace Server

/-- The server as it is but for the paths of its pending requests. -/
def pathless (s : Server) : Server :=
  { s with waiting := s.waiting.map Pending.pathless }

/-- What is seen of some steps that a server takes one after another. -/
def shows (s : Server) : List Step → List (Seen × Trace)
  | [] => []
  | step :: steps => (s.step step).2 :: shows (s.step step).1 steps

/-- Something has the same effect on two servers, as far as paths do not matter. -/
def SameEffect {α : Type} (x y : Server × α) : Prop :=
  x.1.pathless = y.1.pathless ∧ x.2 = y.2

variable (s : Server)

@[simp] theorem site_pathless : s.pathless.site = s.site := rfl

@[simp] theorem life_pathless : s.pathless.life = s.life := rfl

@[simp] theorem granted_pathless (before : Nat) : s.pathless.granted before = s.granted before := rfl

@[simp] theorem length_waiting_pathless : s.pathless.waiting.length = s.waiting.length :=
  List.length_map _

@[simp] theorem pathless_pathless : s.pathless.pathless = s.pathless := by
  unfold pathless
  simp only [List.map_map]
  rfl

@[simp] theorem usePermit_pathless : s.pathless.usePermit = s.usePermit.pathless := by
  unfold usePermit
  rw [site_pathless]
  cases s.site.scheduler.readiness <;> rfl

@[simp] theorem leave_pathless (id : Nat) : s.pathless.leave id = (s.leave id).pathless := by
  unfold leave pathless
  simp only [List.filter_map]
  rfl

theorem giveUp_pathless (p : Pending) : s.pathless.giveUp p.pathless = (s.giveUp p).pathless := by
  unfold giveUp
  change (s.pathless.leave p.id).release p.guardNumber = _
  rw [leave_pathless]
  rfl

theorem pending?_pathless (id : Nat) :
    s.pathless.pending? id = (s.pending? id).map fun found => (found.1, found.2.pathless) := by
  have hfind : s.pathless.waiting.findIdx? (fun p => p.id == id) =
      s.waiting.findIdx? fun p => p.id == id := List.findIdx?_map
  unfold pending?
  rw [hfind]
  cases s.waiting.findIdx? fun p => p.id == id with
  | none => rfl
  | some i =>
      change ((s.waiting.map Pending.pathless)[i]?).map _ = (s.waiting[i]?.map _).map _
      rw [List.getElem?_map, Option.map_map, Option.map_map]
      rfl

theorem drive_pathless (before : Nat) (task : Task Dispatch.Response) :
    s.pathless.drive before task = ((s.drive before task).1.pathless, (s.drive before task).2) := by
  induction task generalizing s with
  | done r => rfl
  | note record next ih => rw [drive_note, drive_note, ih]
  | measure metric next ih => rw [drive_measure, drive_measure, ih]
  | ask call next ih =>
      cases h : s.granted before with
      | true =>
          rw [drive_ask_of_granted s before h, drive_ask_of_granted s.pathless before h,
            usePermit_pathless, site_pathless, ih]
      | false =>
          rw [drive_ask_of_not_granted s before h, drive_ask_of_not_granted s.pathless before h]

/-! ### One step -/

theorem resume_pathless (id : Nat) :
    s.pathless.resume id = ((s.resume id).1.pathless, (s.resume id).2) := by
  unfold resume
  rw [pending?_pathless]
  cases s.pending? id with
  | none => rfl
  | some found =>
      obtain ⟨before, p⟩ := found
      simp only [Option.map_some, granted_pathless, leave_pathless, usePermit_pathless,
        length_waiting_pathless, site_pathless, drive_pathless]
      cases s.granted before with
      | false => rfl
      | true =>
          simp only [if_true, Pending.call_pathless, Pending.next_pathless]
          generalize drive _ _ (p.next _) = driven
          obtain ⟨s', stop, t⟩ := driven
          cases stop with
          | finished r => rfl
          | waiting call next =>
              simp only [pathless, List.map_append]
              rfl

theorem finish_pathless (id : Nat) :
    s.pathless.finish id = ((s.finish id).1.pathless, (s.finish id).2) := by
  unfold finish
  rw [pending?_pathless, resume_pathless]
  cases s.pending? id with
  | none => rfl
  | some found =>
      obtain ⟨before, p⟩ := found
      simp only [Option.map_some]
      generalize s.resume id = resumed
      obtain ⟨s', started, t⟩ := resumed
      rcases started with _ | response | _
      · exact congrArg (·, _) (s'.giveUp_pathless p)
      · rfl
      · exact congrArg (·, _) (s'.giveUp_pathless p)

theorem abandon_pathless (id : Nat) :
    s.pathless.abandon id = ((s.abandon id).1.pathless, (s.abandon id).2) := by
  unfold abandon
  rw [pending?_pathless]
  cases s.pending? id with
  | none => rfl
  | some found => exact congrArg (·, true) (s.giveUp_pathless found.2)

variable (id : Nat) (fresh : String) (uptime : Nat) (request : Http.Request)

theorem startDispatch_pathless :
    SameEffect (s.pathless.startDispatch id fresh request) (s.startDispatch id fresh request) := by
  have hdrive := drive_pathless { s with life := s.life.acquire.2 } s.waiting.length (s.taskFor request)
  change drive _ { s.pathless with life := s.life.acquire.2 } _ = _ at hdrive
  unfold taskFor at hdrive
  unfold startDispatch
  simp only [site_pathless, life_pathless, length_waiting_pathless] at hdrive ⊢
  rw [hdrive]
  generalize drive _ _ (s.site.dispatcher.measured _ _) = driven
  obtain ⟨s', stop, t⟩ := driven
  cases stop with
  | finished r => exact ⟨congrArg (release · s.life.acquire.1) s'.pathless_pathless, rfl⟩
  | waiting call next =>
      refine ⟨?_, rfl⟩
      simp only [pathless, List.map_append, List.map_map]
      rfl

theorem startEvent_pathless :
    SameEffect (s.pathless.startEvent id fresh request) (s.startEvent id fresh request) := by
  unfold startEvent
  split
  · exact ⟨s.pathless_pathless, rfl⟩
  · rw [life_pathless]
    split
    · exact ⟨s.pathless_pathless, rfl⟩
    · exact s.startDispatch_pathless id fresh request

theorem start_pathless :
    SameEffect (s.pathless.start id fresh uptime request) (s.start id fresh uptime request) := by
  unfold start
  rw [site_pathless, life_pathless]
  split
  · exact ⟨s.pathless_pathless, rfl⟩
  · cases s.site.routes.find? request.path with
    | none => exact ⟨s.pathless_pathless, rfl⟩
    | some route =>
        simp only
        split
        · exact ⟨s.pathless_pathless, rfl⟩
        · split
          · exact s.startEvent_pathless id fresh request
          · exact ⟨s.pathless_pathless, rfl⟩

theorem SameEffect.of_pathless {α : Type} (f : Server → Server × α)
    (h : ∀ s : Server, SameEffect (f s.pathless) (f s)) {s t : Server} (hst : s.pathless = t.pathless) :
    SameEffect (f s) (f t) := by
  obtain ⟨hs, hs'⟩ := h s
  obtain ⟨ht, ht'⟩ := h t
  rw [hst] at hs hs'
  exact ⟨hs.symm.trans ht, hs'.symm.trans ht'⟩

theorem finish_sameEffect (s : Server) : SameEffect (s.pathless.finish id) (s.finish id) := by
  rw [finish_pathless]
  exact ⟨pathless_pathless _, rfl⟩

theorem handle_pathless :
    SameEffect (s.pathless.handle id fresh uptime request) (s.handle id fresh uptime request) := by
  unfold handle
  obtain ⟨hserver, hshown⟩ := s.start_pathless id fresh uptime request
  generalize s.pathless.start id fresh uptime request = started' at *
  generalize s.start id fresh uptime request = started at *
  obtain ⟨s', started, t⟩ := started
  obtain ⟨s'', started', t'⟩ := started'
  cases hshown
  cases started with
  | answered response => exact ⟨hserver, rfl⟩
  | pending =>
      obtain ⟨hserver, hshown⟩ := SameEffect.of_pathless (·.finish id) (finish_sameEffect id) hserver
      simp only
      generalize s''.finish id = finished' at *
      generalize s'.finish id = finished at *
      obtain ⟨_, response, u⟩ := finished
      obtain ⟨_, _, _⟩ := finished'
      cases hshown
      have hsite := congrArg Server.site hserver
      simp only [site_pathless] at hsite
      cases response with
      | some response => exact ⟨hserver, rfl⟩
      | none => exact ⟨hserver, congrArg (fun site : Site => (site.timedOut request, t ++ u)) hsite⟩

theorem step_pathless (step : Step) : SameEffect (s.pathless.step step) (s.step step) := by
  cases step with
  | handle fresh uptime request =>
      obtain ⟨hserver, hshown⟩ := s.handle_pathless s.nextId fresh uptime request
      exact ⟨hserver, congrArg (fun shown => (Seen.answered shown.1, shown.2)) hshown⟩
  | start fresh uptime request =>
      have hstart := s.start_pathless s.nextId fresh uptime request
      have hnext : s.pathless.nextId = s.nextId := rfl
      rw [step, step, hnext]
      generalize s.pathless.start s.nextId fresh uptime request = started' at *
      generalize s.start s.nextId fresh uptime request = started at *
      obtain ⟨_, started, t⟩ := started
      obtain ⟨_, _, _⟩ := started'
      obtain ⟨hserver, hshown⟩ := hstart
      cases hshown
      cases started with
      | answered response => exact ⟨hserver, rfl⟩
      | pending => exact ⟨hserver, rfl⟩
  | resume id =>
      rw [step, step, resume_pathless]
      generalize s.resume id = resumed
      obtain ⟨s', started, t⟩ := resumed
      rcases started with _ | _ | _ <;> exact ⟨s'.pathless_pathless, rfl⟩
  | finish id =>
      rw [step, step, finish_pathless]
      generalize s.finish id = finished
      obtain ⟨s', response, t⟩ := finished
      cases response <;> exact ⟨s'.pathless_pathless, rfl⟩
  | abandon id =>
      rw [step, step, abandon_pathless]
      generalize s.abandon id = abandoned
      obtain ⟨s', found⟩ := abandoned
      cases found <;> exact ⟨s'.pathless_pathless, rfl⟩
  | permit => exact ⟨s.permit.pathless_pathless, rfl⟩
  | setReady => exact ⟨(s.withLife Lifecycle.setReady).pathless_pathless, rfl⟩
  | trigger => exact ⟨(s.withLife Lifecycle.trigger).pathless_pathless, rfl⟩
  | drain => exact ⟨(s.withLife fun l => l.drain.2).pathless_pathless, rfl⟩

/-- Servers that are the same but for the paths of their pending requests show the same whatever
happens. -/
theorem shows_eq_of_pathless {s t : Server} (h : s.pathless = t.pathless) (steps : List Step) :
    s.shows steps = t.shows steps := by
  induction steps generalizing s t with
  | nil => rfl
  | cons step steps ih =>
      obtain ⟨hserver, hshown⟩ := SameEffect.of_pathless (·.step step) (fun s => s.step_pathless step) h
      rw [shows, shows, hshown, ih hserver]

end Server

end BuildHooks.Host
