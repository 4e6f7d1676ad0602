import BuildHooks.Proofs.Dispatch.Spelling
import BuildHooks.Proofs.Host.DamagedBody
import BuildHooks.Proofs.Host.Driving
import BuildHooks.Proofs.Task.Silent
import BuildHooks.Proofs.Text.Percent

/-! What the segments after the name of an event do to a request. The escapes of a path are read before
the name is looked for, and they are read in the whole path or not at all. So more segments change
nothing as long as their own escapes can be read, or there is none to read in the path before them.
Where they cannot be read the name is taken as it is written. -/

namespace BuildHooks

namespace Event

theorem firstSegment_append (cs tail : List Char) :
    firstSegment (cs ++ '/' :: tail) = firstSegment cs := by
  unfold firstSegment
  rw [List.takeWhile_append]
  split
  · rw [List.takeWhile_cons_of_neg (by simp), List.append_nil]
    next h => exact ((List.takeWhile_prefix _).eq_of_length h).symm
  · rfl

/-- What follows a slash after the path is not looked at, unless the lead only ends there. -/
theorem nameInPath?_append {lead : String} {cs tail : List Char}
    (h : lead.toList <+: cs ++ '/' :: tail → lead.toList <+: cs) :
    nameInPath? lead (String.ofList (cs ++ '/' :: tail)) = nameInPath? lead (String.ofList cs) := by
  unfold nameInPath?
  rw [String.toList_ofList, String.toList_ofList]
  cases hrest : Text.dropLead? lead.toList cs with
  | some rest =>
      have hlonger : Text.dropLead? lead.toList (cs ++ '/' :: tail) = some (rest ++ '/' :: tail) := by
        rw [Text.dropLead?_eq_some_iff] at hrest ⊢
        rw [hrest, List.append_assoc]
      rw [hlonger, Option.map_some, Option.map_some, firstSegment_append]
  | none =>
      cases hlonger : Text.dropLead? lead.toList (cs ++ '/' :: tail) with
      | none => rfl
      | some rest =>
          rw [Text.dropLead?_eq_some_iff] at hlonger
          obtain ⟨rest', hrest'⟩ := h ⟨rest, hlonger.symm⟩
          rw [Text.dropLead?_eq_some_iff.mpr hrest'.symm] at hrest
          cases hrest

/-- A text that ends in a slash, and starts a longer path, starts every part of it that has as many
slashes. -/
theorem prefix_of_count {cs path tail : List Char}
    (hcount : (cs ++ ['/']).count '/' ≤ path.count '/') (h : cs ++ ['/'] <+: path ++ '/' :: tail) :
    cs ++ ['/'] <+: path := by
  rcases List.prefix_or_prefix_of_prefix h (List.prefix_append path _) with hlead | hpath
  · exact hlead
  · rcases List.prefix_concat_iff.mp hpath with rfl | hshort
    · exact List.prefix_refl _
    · have hle := hshort.sublist.count_le '/'
      rw [List.count_append, List.count_singleton_self] at hcount
      omega

end Event

namespace Dispatcher

open Dispatch Event Text.Percent

/-- The escapes of a text can be read. -/
def Readable (written : String) : Prop :=
  (read? written.toList).isSome = true

instance (written : String) : Decidable (Readable written) :=
  inferInstanceAs (Decidable (_ = true))

theorem toList_pathLead (root : String) : (pathLead root).toList = ('/' :: root.toList) ++ ['/'] := by
  unfold pathLead
  rw [String.toList_append, String.toList_append]
  rfl

variable (d : Dispatcher) (segment tail : String)

theorem resolve?_eq_of_name {path path' : String}
    (h : nameInPath? (pathLead d.root) path' = nameInPath? (pathLead d.root) path) :
    d.resolve? path' = d.resolve? path := by
  unfold resolve?
  rw [h]

/-- A path that is taken as it is written leads to the same entry whatever segments follow. -/
theorem resolve?_written :
    d.resolve? (pathLead d.root ++ segment ++ "/" ++ tail) = d.resolve? (pathLead d.root ++ segment) := by
  have hshort : pathLead d.root ++ segment =
      String.ofList ((pathLead d.root).toList ++ segment.toList) := by
    rw [← String.toList_inj, String.toList_ofList, String.toList_append]
  have hlong : pathLead d.root ++ segment ++ "/" ++ tail =
      String.ofList ((pathLead d.root).toList ++ segment.toList ++ '/' :: tail.toList) := by
    rw [← String.toList_inj, String.toList_ofList, String.toList_append, String.toList_append,
      String.toList_append, List.append_assoc]
    rfl
  refine d.resolve?_eq_of_name ?_
  rw [hlong, hshort]
  exact nameInPath?_append fun _ => List.prefix_append _ _

theorem read?_longer (path : String) :
    read? (path ++ "/" ++ tail).toList =
      (read? path.toList).bind fun cs => (read? tail.toList).map fun ds => cs ++ '/' :: ds := by
  have htoList : (path ++ "/" ++ tail).toList = path.toList ++ '/' :: tail.toList := by
    rw [String.toList_append, String.toList_append, List.append_assoc]
    rfl
  rw [htoList, read?_append]

theorem decodePath_of_read? {path : String} {cs : List Char} (h : read? path.toList = some cs) :
    decodePath path = String.ofList cs := by
  rw [decodePath_eq, h]
  rfl

theorem decodePath_of_not_readable {path : String} (h : ¬Readable path) : decodePath path = path := by
  unfold Readable at h
  rw [Option.not_isSome_iff_eq_none] at h
  rw [decodePath_eq, h]
  rfl

theorem not_readable_longer {path tail : String} (h : ¬Readable path ∨ ¬Readable tail) :
    ¬Readable (path ++ "/" ++ tail) := by
  unfold Readable at h ⊢
  rw [read?_longer]
  simp only [Option.not_isSome_iff_eq_none] at h ⊢
  rcases h with h | h
  · rw [h]
    rfl
  · rw [h]
    cases read? path.toList <;> rfl

/-- Where the escapes of a path are read, those of more segments are too and change nothing. -/
theorem resolve?_read {segment tail : String} (h : Readable (pathLead d.root ++ segment))
    (htail : Readable tail) :
    d.resolve? (decodePath (pathLead d.root ++ segment ++ "/" ++ tail)) =
      d.resolve? (decodePath (pathLead d.root ++ segment)) := by
  obtain ⟨cs, hcs⟩ := Option.isSome_iff_exists.mp h
  obtain ⟨ds, hds⟩ := Option.isSome_iff_exists.mp htail
  have hlonger : read? (pathLead d.root ++ segment ++ "/" ++ tail).toList = some (cs ++ '/' :: ds) := by
    rw [read?_longer, hcs, hds]
    rfl
  rw [decodePath_of_read? hcs, decodePath_of_read? hlonger]
  -- no slash of the root is lost when it is read, so the lead does not end after the path
  have hcount : (('/' :: d.root.toList) ++ ['/']).count '/' ≤ cs.count '/' := by
    refine Nat.le_trans ?_ (count_slash_le hcs)
    rw [String.toList_append, toList_pathLead]
    exact (List.sublist_append_left _ _).count_le '/'
  refine d.resolve?_eq_of_name (nameInPath?_append ?_)
  rw [toList_pathLead]
  exact prefix_of_count hcount

variable (body : String)

theorem silent_perform (path path' : String) (entry : Entry) :
    (perform path' body entry).silent = (perform path body entry).silent := by
  unfold perform
  cases Payload.parse body with
  | error what => rfl
  | ok payload =>
      simp only [Task.silent_bind]
      refine congrArg _ (funext fun created => ?_)
      cases created with
      | error why => rfl
      | ok handler =>
          simp only [Task.silent_bind]
          refine congrArg _ (funext fun result => ?_)
          cases result with
          | error failure => rfl
          | ok result => rfl

/-- The path is left in records alone once it is known where it leads. -/
theorem silent_measured {d : Dispatcher} {path path' : String}
    (h : d.resolve? path' = d.resolve? path) (body : String) :
    (d.measured path' body).silent = (d.measured path body).silent := by
  have hdispatch : (d.dispatch path' body).silent = (d.dispatch path body).silent := by
    unfold dispatch
    rw [h]
    cases d.resolve? path with
    | none => rfl
    | some entry => exact silent_perform body path path' entry
  unfold measured
  rw [Task.silent_bind, Task.silent_bind, hdispatch]

end Dispatcher

namespace Host

open Event Text.Percent Dispatcher

/-- The same request with more segments after its path. -/
def followedBy (request : Http.Request) (tail : String) : Http.Request :=
  { request with path := request.path ++ "/" ++ tail }

namespace Server

variable (s : Server)

/-- A server goes on with a task as it does with the task without its records. -/
theorem drive_silent (before : Nat) (t : Task Dispatch.Response) :
    (s.drive before t.silent).1 = (s.drive before t).1 ∧
    (s.drive before t.silent).2.1 = (s.drive before t).2.1.silent ∧
    (s.drive before t.silent).2.2.silent = (s.drive before t).2.2.silent := by
  induction t generalizing s with
  | done r => exact ⟨rfl, rfl, rfl⟩
  | note record next ih => exact ih s
  | measure metric next ih =>
      obtain ⟨hserver, hstop, htrace⟩ := ih s
      rw [Task.silent, drive_measure, drive_measure]
      refine ⟨hserver, hstop, ?_⟩
      rw [Trace.silent_append, Trace.silent_append, htrace]
  | ask call next ih =>
      cases hgranted : s.granted before with
      | true =>
          rw [Task.silent, drive_ask_of_granted s before hgranted,
            drive_ask_of_granted s before hgranted]
          obtain ⟨hserver, hstop, htrace⟩ := ih (s.site.scheduler.answer call).2 s.usePermit
          refine ⟨hserver, hstop, ?_⟩
          rw [Trace.silent_append, Trace.silent_append, htrace]
      | false =>
          rw [Task.silent, drive_ask_of_not_granted s before hgranted,
            drive_ask_of_not_granted s before hgranted]
          exact ⟨rfl, rfl, rfl⟩

/-- What is seen of a request that was started, besides records: its answer or that it waits, and what
the scheduler was asked and what was measured. -/
def shown (started : Server × Started × Trace) : Started × Trace :=
  (started.2.1, started.2.2.silent)

/-- Nobody but a reader of the log can tell the one request from the other. -/
structure Alike (s : Server) (request request' : Http.Request) : Prop where
  /-- What is dispatched for them is the same but for records. -/
  task : (s.taskFor request').silent = (s.taskFor request).silent
  /-- Whatever the scheduler replies, they have the same responses, calls and measurements. -/
  observed : ∀ {σ : Type} (react : σ → Call → Reply × σ) (state : σ),
    (s.taskFor request').observe react state = (s.taskFor request).observe react state
  started : ∀ id fresh,
    shown (s.startEvent id fresh request') = shown (s.startEvent id fresh request) ∧
    (s.startEvent id fresh request').1.life = (s.startEvent id fresh request).1.life ∧
    (s.startEvent id fresh request').1.permits = (s.startEvent id fresh request).1.permits
  /-- The answers they are due, and those they get when their time is over. -/
  due : ∀ fresh, s.due fresh request' = s.due fresh request
  late : s.site.timedOut request' = s.site.timedOut request

variable {s}

theorem startDispatch_alike {request : Http.Request} {path : String}
    (h : (s.taskFor { request with path }).silent = (s.taskFor request).silent) (id : Nat)
    (fresh : String) :
    shown (s.startDispatch id fresh { request with path }) = shown (s.startDispatch id fresh request) ∧
    (s.startDispatch id fresh { request with path }).1.life =
      (s.startDispatch id fresh request).1.life ∧
    (s.startDispatch id fresh { request with path }).1.permits =
      (s.startDispatch id fresh request).1.permits := by
  have hserver : ∀ request, _ := fun request =>
    drive_silent { s with life := s.life.acquire.2 } s.waiting.length (s.taskFor request)
  obtain ⟨hserver', hstop', htrace'⟩ := hserver { request with path }
  rw [h, (hserver request).1] at hserver'
  rw [h, (hserver request).2.1] at hstop'
  rw [h, (hserver request).2.2] at htrace'
  unfold taskFor at hserver' hstop' htrace'
  unfold startDispatch shown
  simp only at hserver' hstop' htrace' ⊢
  generalize drive _ _ (s.site.dispatcher.measured (decodePath path) _) = driven' at *
  generalize drive _ _ (s.site.dispatcher.measured (decodePath request.path) _) = driven at *
  obtain ⟨t, stop, trace⟩ := driven
  obtain ⟨t', stop', trace'⟩ := driven'
  cases hserver'
  cases stop with
  | finished r =>
      cases stop' with
      | finished r' =>
          cases hstop'
          exact ⟨congrArg _ htrace'.symm, rfl, rfl⟩
      | waiting call' next' => cases hstop'
  | waiting call next =>
      cases stop' with
      | finished r' => cases hstop'
      | waiting call' next' => exact ⟨congrArg _ htrace'.symm, rfl, rfl⟩

theorem startEvent_alike {request : Http.Request} {path : String}
    (h : (s.taskFor { request with path }).silent = (s.taskFor request).silent) (id : Nat)
    (fresh : String) :
    shown (s.startEvent id fresh { request with path }) = shown (s.startEvent id fresh request) ∧
    (s.startEvent id fresh { request with path }).1.life = (s.startEvent id fresh request).1.life ∧
    (s.startEvent id fresh { request with path }).1.permits =
      (s.startEvent id fresh request).1.permits := by
  unfold startEvent
  split
  · exact ⟨rfl, rfl, rfl⟩
  · split
    · exact ⟨rfl, rfl, rfl⟩
    · exact startDispatch_alike h id fresh

/-- Requests that differ in their paths alone are alike if their paths lead to the same. -/
theorem alike_of_resolve? {request : Http.Request} {path : String}
    (h : s.site.dispatcher.resolve? (decodePath path) =
      s.site.dispatcher.resolve? (decodePath request.path)) :
    s.Alike request { request with path } := by
  have htask : (s.taskFor { request with path }).silent = (s.taskFor request).silent :=
    silent_measured h _
  have hobserved : ∀ {σ : Type} (react : σ → Call → Reply × σ) (state : σ),
      (s.taskFor { request with path }).observe react state =
        (s.taskFor request).observe react state :=
    fun react state => Task.observe_eq_of_silent_eq htask react state
  refine ⟨htask, hobserved, startEvent_alike htask, fun fresh => ?_, rfl⟩
  have hrun := hobserved (fun state c => ((s.site.scheduler.answer c).2, state)) ()
  rw [Task.observe_run, Task.observe_run, Observed.mk.injEq] at hrun
  unfold due outcomeFor
  rw [hrun.1]
  rfl

/-- The segments after the name of an event are ignored if their escapes can be read, or if there is
nothing to read in the path before them. If they cannot be read, no escape of the path is, and the
request is dispatched to the event that is called like the segment as it is written. -/
theorem trailing_segments (s : Server) (request : Http.Request) (segment tail : String)
    (hpath : request.path = pathLead s.site.endpoint.root ++ segment) :
    (Readable tail ∨ decodePath request.path = request.path →
      s.Alike request (followedBy request tail)) ∧
    (¬Readable tail → (s.taskFor (followedBy request tail)).silent =
      (s.site.dispatcher.measured request.path
        (String.ofList (Text.Utf8.decodeLenient request.body))).silent) := by
  have hwritten : s.site.dispatcher.resolve? (followedBy request tail).path =
      s.site.dispatcher.resolve? request.path := by
    unfold followedBy
    rw [hpath]
    exact s.site.dispatcher.resolve?_written segment tail
  have hunread : ¬Readable request.path ∨ ¬Readable tail →
      s.site.dispatcher.resolve? (decodePath (followedBy request tail).path) =
        s.site.dispatcher.resolve? request.path := by
    intro h
    have hlonger : ¬Readable (followedBy request tail).path := not_readable_longer h
    rw [decodePath_of_not_readable hlonger, hwritten]
  refine ⟨fun h => alike_of_resolve? ?_, fun htail => silent_measured (hunread (.inr htail)) _⟩
  by_cases hread : Readable request.path ∧ Readable tail
  · obtain ⟨hrequest, htail⟩ := hread
    rw [hpath] at hrequest ⊢
    exact s.site.dispatcher.resolve?_read hrequest htail
  · rw [not_and_or] at hread
    have hsame : decodePath request.path = request.path := by
      rcases hread with hrequest | htail
      · exact decodePath_of_not_readable hrequest
      · exact h.resolve_left htail
    rw [hsame]
    exact hunread hread

end Server

/-- A request to ping with its name written in some way. -/
def pingAs (written : String) : Http.Request :=
  ⟨"POST", "/team-events/" ++ written, [], Text.Utf8.encode ['\x7b', '\x7d']⟩

/-- Segments that stand for a euro sign and a slash leave an escaped name as it is, and a segment that is
not UTF-8 leaves a plain name as it is. -/
theorem trailing_segments_ping :
    let s := Server.ofSite stockSite
    let escaped := pingAs "p%69ng"
    (s.Alike escaped (followedBy escaped "%e2%82%ac/%2Fextra") ∧
      (s.handle 0 "" 0 (followedBy escaped "%e2%82%ac/%2Fextra")).2.1.status = 200) ∧
    (s.Alike (pingAs "ping") (followedBy (pingAs "ping") "%ff") ∧
      (s.handle 0 "" 0 (followedBy (pingAs "ping") "%ff")).2.1.status = 200) ∧
    (s.taskFor (followedBy escaped "%ff")).silent =
      (s.site.dispatcher.measured "/team-events/p%69ng" "\x7b\x7d").silent := by
  have hread : Readable "%e2%82%ac/%2Fextra" := by decide +kernel
  have hplain : decodePath (pingAs "ping").path = (pingAs "ping").path := by decide +kernel
  have hunread : ¬Readable "%ff" := by decide +kernel
  refine ⟨⟨?_, by decide +kernel⟩, ⟨?_, by decide +kernel⟩, ?_⟩
  · exact (Server.trailing_segments _ (pingAs "p%69ng") "p%69ng" "%e2%82%ac/%2Fextra" rfl).1
      (.inl hread)
  · exact (Server.trailing_segments _ (pingAs "ping") "ping" "%ff" rfl).1 (.inr hplain)
  · exact (Server.trailing_segments _ (pingAs "p%69ng") "p%69ng" "%ff" rfl).2 hunread

/-- A segment that is not UTF-8 keeps the escapes before it from being read. -/
theorem unreadable_segment_matters :
    ((Server.ofSite stockSite).handle 0 "" 0 (pingAs "p%69ng")).2.1.status = 200 ∧
    ((Server.ofSite stockSite).handle 0 "" 0 (followedBy (pingAs "p%69ng") "%ff")).2.1.status = 400 := by
  decide +kernel

end Host

end BuildHooks
