import BuildHooks.Dispatch.Measured
import BuildHooks.Proofs.Event.Path
import BuildHooks.Proofs.Task.Run

/-! The course of a dispatch over any registry. The first of five cases that applies decides the
response. Which code of a factory is run, and for which payload, is seen by watching the factories: each
is made to write a mark of our choice before it checks a payload and before its handler goes to work.
The marks in the trace are those of the uses that the course of the dispatch has, each once and each in
front of what the use itself let others see. -/

namespace BuildHooks

namespace Trace

/-- The trace of a record that may be missing. -/
def ofSome : Option Log.Record → Trace
  | some record => ofRecord record
  | none => empty

@[simp] theorem calls_ofSome (r? : Option Log.Record) : (ofSome r?).calls = [] := by
  cases r? with
  | none => rfl
  | some r => rfl

end Trace

namespace Task

variable {α β : Type} (answer : Call → List Log.Record × Reply)

@[simp] theorem run_writeSome (r? : Option Log.Record) :
    (writeSome r?).run answer = ((), .ofSome r?) := by
  cases r? with
  | none => rfl
  | some r => rfl

theorem bind_done (t : Task α) : t.bind done = t := by
  induction t with
  | done a => rfl
  | note r next ih => rw [bind, ih]
  | measure m next ih => rw [bind, ih]
  | ask c next ih =>
      rw [bind]
      congr 1
      funext reply
      exact ih reply

end Task

namespace Dispatch

/-- A use of the code of a factory: it checks a payload, or the handler that it made goes to work. -/
inductive Use where
  | create (entry : Event.Entry) (payload : Payload)
  | perform (entry : Event.Entry) (payload : Payload)

/-- What a dispatch came to. -/
structure Story where
  response : Response
  /-- The uses of factories in their order, each with what it let others see. -/
  uses : List (Use × Trace)
  /-- The note about a request that was refused. -/
  note : Option Log.Record

/-- What others see of a story if each use writes its mark first. -/
def Story.trace (mark : Use → Option Log.Record) (story : Story) : Trace :=
  story.uses.foldr (fun use t => .ofSome (mark use.1) ++ use.2 ++ t) (.ofSome story.note)

/-- The scheduler is asked by the uses of factories alone. -/
theorem Story.calls_trace (mark : Use → Option Log.Record) (story : Story) :
    (story.trace mark).calls = story.uses.flatMap fun use => use.2.calls := by
  unfold trace
  induction story.uses with
  | nil => rw [List.foldr_nil, Trace.calls_ofSome, List.flatMap_nil]
  | cons use uses ih =>
      rw [List.foldr_cons, Trace.calls_append, Trace.calls_append, Trace.calls_ofSome, ih,
        List.nil_append, List.flatMap_cons]

end Dispatch

open Dispatch

namespace Event.Entry

variable (mark : Use → Option Log.Record) (entry : Entry)

/-- A handler of an entry, made to write a mark before it goes to work. -/
def watchedHandler (handler : Handler) : Handler := fun given => do
  Task.writeSome (mark (.perform entry given))
  handler given

/-- The entry with its factory made to write a mark before each use. -/
def watched : Entry where
  name := entry.name
  factory :=
    { sample := entry.factory.sample
      create := fun payload => do
        Task.writeSome (mark (.create entry payload))
        match ← entry.factory.create payload with
        | .error why => return .error why
        | .ok handler => return .ok (entry.watchedHandler mark handler) }

variable (answer : Call → List Log.Record × Reply) (payload : Payload)

theorem run_create_watched :
    ((entry.watched mark).factory.create payload).run answer =
      (((entry.factory.create payload).run answer).1.map (entry.watchedHandler mark),
        .ofSome (mark (.create entry payload)) ++ ((entry.factory.create payload).run answer).2) := by
  change (Task.writeSome _ >>= fun _ => entry.factory.create payload >>= _).run answer = _
  rw [Task.run_bind, Task.run_writeSome, Task.run_bind]
  cases ((entry.factory.create payload).run answer).1 with
  | error why =>
      simp only [Task.run_pure, Trace.append_empty]
      rfl
  | ok handler =>
      simp only [Task.run_pure, Trace.append_empty]
      rfl

theorem run_watchedHandler (handler : Handler) :
    (entry.watchedHandler mark handler payload).run answer =
      (((handler payload).run answer).1,
        .ofSome (mark (.perform entry payload)) ++ ((handler payload).run answer).2) := by
  unfold watchedHandler
  rw [Task.run_bind, Task.run_writeSome]

theorem watched_none : entry.watched (fun _ => none) = entry := by
  have hcreate : (entry.watched fun _ => none).factory.create = entry.factory.create := by
    funext payload
    change (entry.factory.create payload).bind _ = _
    conv => rhs; rw [← Task.bind_done (entry.factory.create payload)]
    congr 1
    funext created
    cases created with
    | error why => rfl
    | ok handler => rfl
  cases entry with
  | mk name factory =>
      cases factory with
      | mk sample create =>
          unfold watched at hcreate ⊢
          simp only at hcreate ⊢
          rw [hcreate]

end Event.Entry

namespace Dispatcher

/-- The same events with all their factories watched. -/
def watched (mark : Use → Option Log.Record) (d : Dispatcher) : Dispatcher where
  registry := ⟨d.registry.entries.map fun e => (e.1, e.2.watched mark)⟩
  root := d.root

/-- The path names an event, not with a blank, and `entry` is what is registered under its name. -/
def Reaches (d : Dispatcher) (path : String) (entry : Event.Entry) : Prop :=
  ∃ segment, Event.Names d.root path segment ∧ Text.isAllBlank segment = false ∧
    d.registry.lookup? segment = some entry

/-- The path names no event, or has a blank for a name, or a name that is not registered. -/
def Misses (d : Dispatcher) (path : String) : Prop :=
  ∀ segment, Event.Names d.root path segment →
    Text.isAllBlank segment = true ∨ d.registry.lookup? segment = none

/-- The courses that a dispatch may take. The conditions of each rule out all the others. -/
inductive Course (d : Dispatcher) (path body : String) (answer : Call → List Log.Record × Reply) :
    Story → Prop where
  | noEvent (hmisses : d.Misses path) :
      Course d path body answer
        ⟨⟨.badRequest, "Invalid event", none⟩, [], some (Problem.noEvent.record path none)⟩
  | malformed (entry : Event.Entry) (what : Payload.Malformed) (hentry : d.Reaches path entry)
      (hbody : Payload.parse body = .error what) :
      Course d path body answer
        ⟨⟨.badRequest, what.message, some entry.name⟩, [],
          some ((Problem.malformed what).record path (some entry.name))⟩
  | rejected (entry : Event.Entry) (payload : Payload) (why : Payload.Rejection) (t : Trace)
      (hentry : d.Reaches path entry) (hbody : Payload.parse body = .ok payload)
      (hcreate : (entry.factory.create payload).run answer = (.error why, t)) :
      Course d path body answer
        ⟨⟨.badRequest, why.message, some entry.name⟩, [(.create entry payload, t)],
          some ((Problem.rejected why).record path (some entry.name))⟩
  | failed (entry : Event.Entry) (payload : Payload) (handler : Handler) (failure : Failure)
      (t u : Trace) (hentry : d.Reaches path entry) (hbody : Payload.parse body = .ok payload)
      (hcreate : (entry.factory.create payload).run answer = (.ok handler, t))
      (hperform : (handler payload).run answer = (.error failure, u)) :
      Course d path body answer
        ⟨⟨.internalError,
            "Error while performing reaction to '" ++ entry.name ++ "' event: "
              ++ ": ".intercalate (failure.message :: failure.causes),
            some entry.name⟩,
          [(.create entry payload, t), (.perform entry payload, u)],
          some ((Problem.failed entry.name failure).record path (some entry.name))⟩
  | performed (entry : Event.Entry) (payload : Payload) (handler : Handler) (result : Payload)
      (t u : Trace) (hentry : d.Reaches path entry) (hbody : Payload.parse body = .ok payload)
      (hcreate : (entry.factory.create payload).run answer = (.ok handler, t))
      (hperform : (handler payload).run answer = (.ok result, u)) :
      Course d path body answer
        ⟨⟨.ok, result.text, some entry.name⟩,
          [(.create entry payload, t), (.perform entry payload, u)], none⟩

variable (d : Dispatcher) (path body : String) (answer : Call → List Log.Record × Reply)

theorem resolve?_eq_some_iff {entry : Event.Entry} :
    d.resolve? path = some entry ↔ d.Reaches path entry := by
  unfold resolve? Reaches
  cases hname : Event.nameInPath? (Event.pathLead d.root) path with
  | none =>
      constructor
      · intro h
        cases h
      · rintro ⟨segment, hsegment, _⟩
        rw [Event.nameInPath?_eq_some_iff.mpr hsegment] at hname
        cases hname
  | some segment =>
      have hnames := Event.nameInPath?_eq_some_iff.mp hname
      constructor
      · intro h
        simp only at h
        split at h
        · cases h
        · next hblank => exact ⟨segment, hnames, by simpa using hblank, h⟩
      · rintro ⟨segment', hsegment, hblank, hlookup⟩
        rw [Event.nameInPath?_eq_some_iff.mpr hsegment] at hname
        cases hname
        simp only
        rw [if_neg (by simp [hblank]), hlookup]

theorem resolve?_eq_none_iff : d.resolve? path = none ↔ d.Misses path := by
  constructor
  · intro h segment hsegment
    by_cases hblank : Text.isAllBlank segment = true
    · exact .inl hblank
    · refine .inr ?_
      cases hlookup : d.registry.lookup? segment with
      | none => rfl
      | some entry =>
          rw [(d.resolve?_eq_some_iff path).mpr
            ⟨segment, hsegment, by simpa using hblank, hlookup⟩] at h
          cases h
  · intro h
    cases hresolve : d.resolve? path with
    | none => rfl
    | some entry =>
        obtain ⟨segment, hsegment, hblank, hlookup⟩ := (d.resolve?_eq_some_iff path).mp hresolve
        rcases h segment hsegment with h | h
        · rw [hblank] at h
          cases h
        · rw [hlookup] at h
          cases h

theorem lookup?_watched (mark : Use → Option Log.Record) (segment : String) :
    (d.watched mark).registry.lookup? segment =
      (d.registry.lookup? segment).map (Event.Entry.watched mark) := by
  change ((d.registry.entries.map _).find? _).map _ = _
  rw [List.find?_map, Event.Registry.lookup?, Option.map_map, Option.map_map]
  rfl

theorem resolve?_watched (mark : Use → Option Log.Record) :
    (d.watched mark).resolve? path = (d.resolve? path).map (Event.Entry.watched mark) := by
  have hroot : (d.watched mark).root = d.root := rfl
  unfold resolve?
  rw [hroot]
  cases Event.nameInPath? (Event.pathLead d.root) path with
  | none => rfl
  | some segment =>
      simp only
      split
      · rfl
      · exact d.lookup?_watched mark segment

theorem run_refuse (event : Option String) (problem : Problem) :
    (problem.refuse path event).run answer =
      (⟨problem.status, problem.message, event⟩, .ofRecord (problem.record path event)) := rfl

theorem run_measured :
    (d.measured path body).run answer =
      (((d.dispatch path body).run answer).1,
        ((d.dispatch path body).run answer).2 ++
          (((d.dispatch path body).run answer).1.measured.run answer).2) := by
  unfold measured
  rw [Task.run_bind]
  rfl

theorem watched_none : d.watched (fun _ => none) = d := by
  have hentries : d.registry.entries.map (fun e => (e.1, e.2.watched fun _ => none)) =
      d.registry.entries := by
    conv => rhs; rw [← List.map_id d.registry.entries]
    refine List.map_congr_left fun e _ => ?_
    rw [Event.Entry.watched_none]
    rfl
  unfold watched
  rw [hentries]

variable {d path body answer}

/-- Dispatch over watched factories takes the course, and each use is marked. -/
theorem Course.run_watched {story : Story} (h : d.Course path body answer story)
    (mark : Use → Option Log.Record) :
    ((d.watched mark).dispatch path body).run answer = (story.response, story.trace mark) := by
  unfold dispatch
  rw [resolve?_watched]
  cases h with
  | noEvent hmisses =>
      rw [(d.resolve?_eq_none_iff path).mpr hmisses]
      rfl
  | malformed entry what hentry hbody =>
      rw [(d.resolve?_eq_some_iff path).mpr hentry]
      simp only [Option.map_some, perform, hbody]
      rfl
  | rejected entry payload why t hentry hbody hcreate =>
      rw [(d.resolve?_eq_some_iff path).mpr hentry]
      simp only [Option.map_some, perform, hbody]
      rw [Task.run_bind, Event.Entry.run_create_watched, hcreate]
      rfl
  | failed entry payload handler failure t u hentry hbody hcreate hperform =>
      rw [(d.resolve?_eq_some_iff path).mpr hentry]
      simp only [Option.map_some, perform, hbody]
      rw [Task.run_bind, Event.Entry.run_create_watched, hcreate]
      simp only [Except.map]
      rw [Task.run_bind, Event.Entry.run_watchedHandler, hperform]
      simp only [run_refuse]
      rfl
  | performed entry payload handler result t u hentry hbody hcreate hperform =>
      rw [(d.resolve?_eq_some_iff path).mpr hentry]
      simp only [Option.map_some, perform, hbody]
      rw [Task.run_bind, Event.Entry.run_create_watched, hcreate]
      simp only [Except.map]
      rw [Task.run_bind, Event.Entry.run_watchedHandler, hperform]
      rfl

theorem Course.run {story : Story} (h : d.Course path body answer story) :
    (d.dispatch path body).run answer = (story.response, story.trace fun _ => none) := by
  have hplain := h.run_watched fun _ => none
  rw [d.watched_none] at hplain
  exact hplain

variable (d path body answer)

theorem exists_course : ∃ story, d.Course path body answer story := by
  cases hresolve : d.resolve? path with
  | none => exact ⟨_, .noEvent ((d.resolve?_eq_none_iff path).mp hresolve)⟩
  | some entry =>
      have hentry := (d.resolve?_eq_some_iff path).mp hresolve
      cases hbody : Payload.parse body with
      | error what => exact ⟨_, .malformed entry what hentry hbody⟩
      | ok payload =>
          rcases hcreate : (entry.factory.create payload).run answer with ⟨created, t⟩
          cases created with
          | error why => exact ⟨_, .rejected entry payload why t hentry hbody hcreate⟩
          | ok handler =>
              rcases hperform : (handler payload).run answer with ⟨performed, u⟩
              cases performed with
              | error failure =>
                  exact ⟨_, .failed entry payload handler failure t u hentry hbody hcreate hperform⟩
              | ok result =>
                  exact ⟨_, .performed entry payload handler result t u hentry hbody hcreate hperform⟩

variable {d path body answer}

theorem Reaches.eq {entry other : Event.Entry} (h : d.Reaches path entry)
    (h' : d.Reaches path other) : other = entry := by
  rw [← resolve?_eq_some_iff] at h h'
  rw [h] at h'
  cases h'
  rfl

theorem Misses.not_reaches (h : d.Misses path) (entry : Event.Entry) : ¬d.Reaches path entry := by
  intro hreaches
  rw [← resolve?_eq_none_iff] at h
  rw [← resolve?_eq_some_iff, h] at hreaches
  cases hreaches

theorem Course.eq {story other : Story} (h : d.Course path body answer story)
    (h' : d.Course path body answer other) : other = story := by
  cases h <;> cases h' <;> grind [Reaches.eq, Misses.not_reaches]

/-- A course checks one payload with the factory that the path leads to, if any, and only then has its
handler work on the same payload. -/
theorem Course.uses_eq {story : Story} (h : d.Course path body answer story) :
    story.uses = [] ∨ ∃ entry payload, d.Reaches path entry ∧ Payload.parse body = .ok payload ∧
      story.uses.map Prod.fst <+: [.create entry payload, .perform entry payload] := by
  cases h with
  | noEvent => exact .inl rfl
  | malformed => exact .inl rfl
  | rejected entry payload why t hentry hbody =>
      exact .inr ⟨entry, payload, hentry, hbody, [.perform entry payload], rfl⟩
  | failed entry payload handler failure t u hentry hbody =>
      exact .inr ⟨entry, payload, hentry, hbody, [], rfl⟩
  | performed entry payload handler result t u hentry hbody =>
      exact .inr ⟨entry, payload, hentry, hbody, [], rfl⟩

variable (d path body answer)

/-- Every dispatch takes one course. It is answered as the course says and leaves the trace of it, and
watching the factories shows the uses that the course has and no others. Answers are JSON exactly when
they are results. -/
theorem dispatch_course :
    ∃ story, d.Course path body answer story ∧
      (∀ other, d.Course path body answer other → other = story) ∧
      (d.dispatch path body).run answer = (story.response, story.trace fun _ => none) ∧
      (∀ mark, ((d.watched mark).dispatch path body).run answer =
        (story.response, story.trace mark)) ∧
      (story.uses = [] ∨ ∃ entry payload, d.Reaches path entry ∧
        Payload.parse body = .ok payload ∧
        story.uses.map Prod.fst <+: [.create entry payload, .perform entry payload]) ∧
      (story.response.status.contentType = "application/json; charset=utf-8" ↔
        story.response.status.code = 200) := by
  obtain ⟨story, hcourse⟩ := d.exists_course path body answer
  refine ⟨story, hcourse, fun other hother => hcourse.eq hother, hcourse.run,
    hcourse.run_watched, hcourse.uses_eq, ?_⟩
  cases story.response.status with
  | ok => exact iff_of_true rfl rfl
  | badRequest => exact iff_of_false (by decide) (by decide)
  | internalError => exact iff_of_false (by decide) (by decide)

end Dispatcher

end BuildHooks
