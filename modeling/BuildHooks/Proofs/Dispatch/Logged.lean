import BuildHooks.Dispatch.Measured
import BuildHooks.Job.Catalog
import BuildHooks.Proofs.Dispatch.Counted
import BuildHooks.Proofs.Dispatch.Spelling
import BuildHooks.Proofs.Task.Stateful

/-! What the log tells of the responses. The scheduler is a catalog, or one that writes no records of its
own; it may have a state. Each request adds a stretch to the log that can be held against its response: an
error stands there exactly if the request failed, a warning exactly if it was refused, what was triggered
is told just as in the response, and the last record is that the dispatch is complete. -/

namespace BuildHooks

/-- The records of one level. -/
def Log.atLevel (level : Log.Level) (log : List Log.Record) : List Log.Record :=
  log.filter fun record => record.level = level

namespace Dispatch

open Event

/-- The message of the record that ends a request. -/
def completeMessage : String := "dispatch complete"

/-- The record that ends a request is about this response. -/
structure Ends (r : Response) (record : Log.Record) : Prop where
  level : record.level = .info
  message : record.message = completeMessage
  event : record.fields.lookup "event" = some (.plain (r.event.getD "unknown"))
  status : record.fields.lookup "status" = some (.number r.status.code)
  outcome : record.fields.lookup "outcome" = some (.quoted r.status.outcome)

/-- The record of a job is about this outcome. -/
structure TellsJob (record : Log.Record) (o : Outcome) : Prop where
  message : record.message = o.message
  job : record.fields.lookup "job" = some (.plain o.job)
  triggered : record.fields.lookup "triggered" = none

/-- These are the records of the jobs: one for each outcome if there is a catalog, and else none. -/
def TellsJobs : Option Catalog → List Log.Record → List Outcome → Prop
  | some _, jobs, outcomes => List.Forall₂ TellsJob jobs outcomes
  | none, jobs, _ => jobs = []

/-- The response and the log both tell these outcomes. -/
structure TellsTriggered (catalog? : Option Catalog) (outcomes : List Outcome) (r : Response)
    (log : List Log.Record) : Prop where
  messages : ∃ payload, Payload.parse r.body = .ok payload ∧
    payload.field? "messages" = some (.array (outcomes.map fun o => .string o.message))
  records : ∃ jobs processed complete, Log.atLevel .info log = jobs ++ [processed, complete] ∧
    TellsJobs catalog? jobs outcomes ∧
    processed.fields.lookup "triggered" = some (.number outcomes.length) ∧ Ends r complete

/-- What a request let others see agrees with its response. -/
structure Agrees (catalog? : Option Catalog) (answer : Call → List Log.Record × Reply) (r : Response)
    (t : Trace) : Prop where
  errors : (Log.atLevel .error t.records).length = if r.status.code = 500 then 1 else 0
  warnings : (Log.atLevel .warn t.records).length = if r.status.code = 400 then 1 else 0
  complete : ∃ front complete, t.records = front ++ [complete] ∧ Ends r complete ∧
    ∀ record ∈ front, record.message ≠ completeMessage
  triggered : r.status.code = 200 →
    ∀ event ∈ [gitCodePushed, gitPush, pullRequestMergeCommitCreated], r.event = some event →
      ∃ call outcomes, t.calls = [call] ∧ (answer call).2 = .ok outcomes ∧
        TellsTriggered catalog? outcomes r t.records

/-- The scheduler answers as this catalog, or it writes nothing. -/
def AnswersAs (catalog? : Option Catalog) (answer : Call → List Log.Record × Reply) : Prop :=
  match catalog? with
  | some c => answer = c.scheduler.answer
  | none => ∀ call, (answer call).1 = []

/-- Records that are told to nobody but those who look for mistakes. -/
def Faint (log : List Log.Record) : Prop :=
  ∀ record ∈ log, record.level = .debug ∧ record.message ≠ completeMessage

/-! ### Stretches of the log -/

section Levels

variable {level : Log.Level} {log more : List Log.Record}

@[simp] theorem atLevel_append :
    Log.atLevel level (log ++ more) = Log.atLevel level log ++ Log.atLevel level more :=
  List.filter_append _ _

theorem Faint.atLevel_eq_nil (h : Faint log) (hlevel : level ≠ .debug) : Log.atLevel level log = [] := by
  refine List.filter_eq_nil_iff.mpr fun record hrecord => ?_
  rw [(h record hrecord).1, decide_eq_true_eq]
  exact hlevel.symm

end Levels

theorem message_ne_complete (o : Outcome) : o.message ≠ completeMessage := by
  have hfirst : o.message.toList.head? = some 'S' := by
    obtain ⟨job, kind⟩ := o
    cases kind with
    | pollingScheduled =>
        change ("Scheduled polling of " ++ job).toList.head? = some 'S'
        rw [String.toList_append]
        rfl
    | buildScheduled =>
        change ("Scheduled " ++ job).toList.head? = some 'S'
        rw [String.toList_append]
        rfl
  intro h
  rw [h] at hfirst
  exact absurd hfirst (by decide)

theorem ends_record (r : Response) : Ends r r.record :=
  ⟨rfl, rfl, rfl, rfl, rfl⟩

/-! ### What the events write -/

/-- What a handler tells when its call triggered something. -/
def processedRecord (event : String) (outcomes : List Outcome) : Call → Log.Record
  | .push push => pushRecord event push outcomes
  | .pullRequest r => pullRequestRecord r outcomes

theorem faint_addressNote? (push : Push) : Faint (Trace.ofSome push.addressNote?).records := by
  unfold Push.addressNote?
  intro record hrecord
  split at hrecord
  · split at hrecord
    · exact absurd hrecord List.not_mem_nil
    · rw [List.mem_singleton.mp hrecord]
      exact ⟨rfl, show "remote URL has no project segment" ≠ completeMessage by decide⟩
  · exact absurd hrecord List.not_mem_nil

section Run

variable (answer : Call → List Log.Record × Reply)

theorem run_afterNote (note : Option Log.Record) (handler : Handler) :
    (do Task.writeSome note; return .ok handler :
        Task (Except Payload.Rejection Handler)).run answer = (.ok handler, .ofSome note) := by
  rw [Task.run_bind, Task.run_writeSome, Task.run_pure, Trace.append_empty]

/-- A handler that asks first of all, and then fails or tells what was triggered. -/
theorem run_of_call {handler : Handler} {payload : Payload} {event : String} {call : Call}
    {about : Json.Members} {goOn : Reply → Task (Except Failure Payload)}
    (hhandler : handler payload = Task.call call >>= goOn)
    (hok : ∀ outcomes, (goOn (.ok outcomes)).run answer =
      (.ok (triggered event about outcomes), .ofRecord (processedRecord event outcomes call)))
    (herror : ∀ failure, ∃ told, (goOn (.error failure)).run answer = (.error told, .empty)) :
    (∀ outcomes, (answer call).2 = .ok outcomes → (handler payload).run answer =
      (.ok (triggered event about outcomes),
        Task.asked answer call ++ .ofRecord (processedRecord event outcomes call))) ∧
    ∀ failure, (answer call).2 = .error failure →
      ∃ told, (handler payload).run answer = (.error told, Task.asked answer call) := by
  rw [hhandler, Task.run_bind, Task.run_call]
  constructor
  · intro outcomes hreply
    simp only [hreply]
    rw [hok]
  · intro failure hreply
    obtain ⟨told, htold⟩ := herror failure
    simp only [hreply]
    rw [htold, Trace.append_empty]
    exact ⟨told, rfl⟩

/-- What an accepted payload is seen to lead to, with all records. -/
theorem logged_of_hands {factory : Factory} {payload : Payload} {event : String} {call : Call}
    {about : Json.Members} (h : Hands factory payload event call about) :
    ∃ handler note, (factory.create payload).run answer = (.ok handler, .ofSome note) ∧
      Faint (Trace.ofSome note).records ∧
      (∀ outcomes, (answer call).2 = .ok outcomes → (handler payload).run answer =
        (.ok (triggered event about outcomes),
          Task.asked answer call ++ .ofRecord (processedRecord event outcomes call))) ∧
      ∀ failure, (answer call).2 = .error failure →
        ∃ told, (handler payload).run answer = (.error told, Task.asked answer call) := by
  cases h with
  | codePushed _ push h =>
      refine ⟨pushHandler gitCodePushed push, push.addressNote?, ?_, faint_addressNote? push, ?_⟩
      · simp only [codePushedFactory, h]
        exact run_afterNote answer _ _
      · exact run_of_call answer rfl (fun outcomes => rfl) fun failure => ⟨_, rfl⟩
  | push _ push h =>
      refine ⟨pushHandler gitPush push, none, ?_, fun _ h => absurd h List.not_mem_nil, ?_⟩
      · simp only [pushFactory, h]
        rfl
      · exact run_of_call answer rfl (fun outcomes => rfl) fun failure => ⟨_, rfl⟩
  | pullRequest _ r h =>
      refine ⟨pullRequestHandler r, r.push.addressNote?, ?_, faint_addressNote? r.push, ?_⟩
      · simp only [mergeCommitFactory, h]
        exact run_afterNote answer _ _
      · exact run_of_call answer rfl (fun outcomes => rfl) fun failure => ⟨_, rfl⟩

/-- A payload that is not accepted is refused without a record. -/
theorem eq_empty_of_rejected {name : String} {factory : Factory} (h : (name, factory) ∈ builtins)
    {payload : Payload} {why : Payload.Rejection} {t : Trace}
    (hrejected : (factory.create payload).run answer = (.error why, t)) : t = .empty := by
  rcases builtin_cases answer h payload with ⟨_, hping⟩ | ⟨why', hwhy⟩ | ⟨call, about, hhands⟩
  · rw [hping] at hrejected
    cases hrejected
  · rw [hwhy] at hrejected
    cases hrejected
    rfl
  · obtain ⟨handler, note, hcreate, _⟩ := logged_of_hands answer hhands
    rw [hcreate] at hrejected
    cases hrejected

/-- A payload that is accepted is a ping, or its handler asks once. -/
theorem accepted_cases {name : String} {factory : Factory} (h : (name, factory) ∈ builtins)
    {payload : Payload} {handler : Handler} {t : Trace}
    (haccepted : (factory.create payload).run answer = (.ok handler, t)) :
    (name = ping ∧ t = .empty ∧ (handler payload).run answer = (.ok payload, .empty)) ∨
    ∃ call about note, Hands factory payload name call about ∧
      t = .ofSome note ∧ Faint (Trace.ofSome note).records ∧
      (∀ outcomes, (answer call).2 = .ok outcomes → (handler payload).run answer =
        (.ok (triggered name about outcomes),
          Task.asked answer call ++ .ofRecord (processedRecord name outcomes call))) ∧
      ∀ failure, (answer call).2 = .error failure →
        ∃ told, (handler payload).run answer = (.error told, Task.asked answer call) := by
  rcases builtin_cases answer h payload with ⟨hname, hping⟩ | ⟨why, hwhy⟩ | ⟨call, about, hhands⟩
  · rw [hping] at haccepted
    cases haccepted
    exact .inl ⟨hname, rfl, rfl⟩
  · rw [hwhy] at haccepted
    cases haccepted
  · obtain ⟨handler', note, hcreate, hnote, hreply⟩ := logged_of_hands answer hhands
    rw [hcreate] at haccepted
    cases haccepted
    exact .inr ⟨call, about, note, hhands, rfl, hnote, hreply⟩

end Run

/-! ### What the scheduler writes -/

theorem tellsJob_outcomeRecord (call : Call) (o : Outcome) : TellsJob (Catalog.outcomeRecord call o) o := by
  cases call with
  | push push => exact ⟨rfl, rfl, rfl⟩
  | pullRequest r => exact ⟨rfl, rfl, rfl⟩

/-- The records of a scheduler, and those among them that are about jobs. -/
structure Answered (catalog? : Option Catalog) (answered : List Log.Record × Reply)
    (note jobs : List Log.Record) : Prop where
  records : answered.1 = note ++ jobs
  note : Faint note
  each : ∀ record ∈ jobs, record.level = .info ∧ record.message ≠ completeMessage
  told : ∀ outcomes, answered.2 = .ok outcomes → TellsJobs catalog? jobs outcomes
  failed : ∀ failure, answered.2 = .error failure → jobs = []

theorem exists_answered {catalog? : Option Catalog} {answer : Call → List Log.Record × Reply}
    (h : AnswersAs catalog? answer) (call : Call) :
    ∃ note jobs, Answered catalog? (answer call) note jobs := by
  cases catalog? with
  | none =>
      refine ⟨[], [], h call, fun _ h => absurd h List.not_mem_nil, fun _ h => absurd h List.not_mem_nil,
        fun _ _ => rfl, fun _ _ => rfl⟩
  | some c =>
      have hanswer : answer call = (c.records call, .ok (c.outcomes call)) := congrFun h call
      rw [hanswer]
      refine ⟨_, (c.outcomes call).map (Catalog.outcomeRecord call), rfl, ?_, ?_, ?_, ?_⟩
      · intro record hrecord
        split at hrecord
        · rw [List.mem_singleton.mp hrecord]
          exact ⟨rfl, show "no job watches pushed repository" ≠ completeMessage by decide⟩
        · exact absurd hrecord List.not_mem_nil
      · intro record hrecord
        obtain ⟨o, _, rfl⟩ := List.mem_map.mp hrecord
        exact ⟨rfl, message_ne_complete o⟩
      · intro outcomes houtcomes
        cases houtcomes
        exact List.forall₂_map_left_iff.mpr
          (List.forall₂_same.mpr fun o _ => tellsJob_outcomeRecord call o)
      · intro failure hfailure
        cases hfailure

section Jobs

variable {jobs : List Log.Record}
  (h : ∀ record ∈ jobs, record.level = .info ∧ record.message ≠ completeMessage)

include h

theorem atLevel_info_jobs : Log.atLevel .info jobs = jobs :=
  List.filter_eq_self.mpr fun record hrecord => decide_eq_true (h record hrecord).1

theorem atLevel_jobs {level : Log.Level} (hlevel : level ≠ .info) : Log.atLevel level jobs = [] := by
  refine List.filter_eq_nil_iff.mpr fun record hrecord => ?_
  rw [(h record hrecord).1, decide_eq_true_eq]
  exact hlevel.symm

end Jobs

/-! ### One request -/

variable {catalog? : Option Catalog} {answer : Call → List Log.Record × Reply}

/-- A request whose log is a warning and that the dispatch is complete agrees with a refusal. -/
theorem agrees_of_refused {r : Response} {t : Trace} {record : Log.Record}
    (hstatus : r.status = .badRequest) (hlevel : record.level = .warn)
    (hmessage : record.message = "rejected event request")
    (ht : t.records = [record, r.record]) : Agrees catalog? answer r t where
  errors := by
    rw [ht, hstatus]
    simp [Log.atLevel, hlevel, Response.record, Status.code]
  warnings := by
    rw [ht, hstatus]
    simp [Log.atLevel, hlevel, Response.record, Status.code]
  complete := by
    refine ⟨[record], r.record, ht, ends_record r, List.forall_mem_singleton.mpr ?_⟩
    rw [hmessage]
    decide
  triggered := by
    intro hcode
    rw [hstatus] at hcode
    cases hcode

theorem agrees_of_ping {r : Response} {t : Trace} (hstatus : r.status = .ok)
    (hevent : r.event = some ping) (ht : t.records = [r.record]) : Agrees catalog? answer r t where
  errors := by
    rw [ht, hstatus]
    simp [Log.atLevel, Response.record, Status.code]
  warnings := by
    rw [ht, hstatus]
    simp [Log.atLevel, Response.record, Status.code]
  complete := ⟨[], r.record, ht, ends_record r, fun _ h => absurd h List.not_mem_nil⟩
  triggered := by
    intro _ event hmem h
    rw [hevent] at h
    cases h
    exact absurd hmem (by decide)

section Asked

variable {r : Response} {t : Trace} {note jobs : List Log.Record}

/-- A request that failed left the error after faint records. -/
theorem agrees_of_failed (record : Log.Record) (hstatus : r.status = .internalError)
    (hnote : Faint note) (hlevel : record.level = .error) (hmessage : record.message ≠ completeMessage)
    (ht : t.records = note ++ [record, r.record]) : Agrees catalog? answer r t where
  errors := by
    rw [ht, atLevel_append, hnote.atLevel_eq_nil (by decide), hstatus]
    simp [Log.atLevel, hlevel, Response.record, Status.code]
  warnings := by
    rw [ht, atLevel_append, hnote.atLevel_eq_nil (by decide), hstatus]
    simp [Log.atLevel, hlevel, Response.record, Status.code]
  complete := by
    refine ⟨note ++ [record], r.record, ?_, ends_record r, ?_⟩
    · rw [ht, List.append_assoc]
      rfl
    · exact List.forall_mem_append.mpr
        ⟨fun record h => (hnote record h).2, List.forall_mem_singleton.mpr hmessage⟩
  triggered := by
    intro hcode
    rw [hstatus] at hcode
    cases hcode

/-- A request that triggered something left the records of the jobs and then its own. -/
theorem agrees_of_triggered (event : String) {call : Call} {outcomes : List Outcome}
    {payload : Payload} (hr : r.status = .ok) (hcalls : t.calls = [call])
    (hreply : (answer call).2 = .ok outcomes) (hbody : Payload.parse r.body = .ok payload)
    (hmessages : payload.field? "messages" = some (.array (outcomes.map fun o => .string o.message)))
    (hnote : Faint note)
    (hjobs : ∀ record ∈ jobs, record.level = .info ∧ record.message ≠ completeMessage)
    (htold : TellsJobs catalog? jobs outcomes)
    (ht : t.records = note ++ (jobs ++ [processedRecord event outcomes call, r.record])) :
    Agrees catalog? answer r t := by
  have hlevel : (processedRecord event outcomes call).level = .info := by cases call <;> rfl
  have hmessage : (processedRecord event outcomes call).message ≠ completeMessage := by
    cases call with
    | push push => exact show "push processed" ≠ completeMessage by decide
    | pullRequest r =>
        exact show "pull request merge commit processed" ≠ completeMessage by decide
  have htriggered : (processedRecord event outcomes call).fields.lookup "triggered" =
      some (.number outcomes.length) := by
    cases call <;> rfl
  have hnone : ∀ level, level ≠ .debug → level ≠ .info → Log.atLevel level t.records = [] := by
    intro level hdebug hinfo
    rw [ht, atLevel_append, atLevel_append, hnote.atLevel_eq_nil hdebug, atLevel_jobs hjobs hinfo]
    simp [Log.atLevel, hlevel, Response.record, hinfo.symm]
  refine ⟨?_, ?_, ?_, ?_⟩
  · rw [hnone .error (by decide) (by decide), hr]
    rfl
  · rw [hnone .warn (by decide) (by decide), hr]
    rfl
  · refine ⟨note ++ (jobs ++ [processedRecord event outcomes call]), r.record, ?_, ends_record r, ?_⟩
    · rw [ht, List.append_assoc, List.append_assoc]
      rfl
    · refine List.forall_mem_append.mpr ⟨fun record h => (hnote record h).2, ?_⟩
      exact List.forall_mem_append.mpr
        ⟨fun record h => (hjobs record h).2, List.forall_mem_singleton.mpr hmessage⟩
  · intro _ _ _ _
    refine ⟨call, outcomes, hcalls, hreply, ⟨payload, hbody, hmessages⟩, jobs, _, _, ?_, htold,
      htriggered, ends_record r⟩
    rw [ht, atLevel_append, atLevel_append, hnote.atLevel_eq_nil (by decide), atLevel_info_jobs hjobs]
    simp [Log.atLevel, hlevel, Response.record]

end Asked

end Dispatch

namespace Dispatcher

open Event Dispatch

theorem run_measured_response (answer : Call → List Log.Record × Reply) (r : Response) :
    r.measured.run answer =
      (r, ⟨[r.record], [.dispatched r.label r.status.outcome, .duration r.label], []⟩) := rfl

theorem field?_messages {factory : Factory} {payload : Payload} {event : String} {call : Call}
    {about : Json.Members} (h : Hands factory payload event call about) (outcomes : List Outcome) :
    Payload.field? (triggered event about outcomes) "messages" =
      some (.array (outcomes.map fun o => .string o.message)) := by
  cases h <;> rfl

/-- What each request lets others see agrees with its response. -/
theorem agrees_measured {catalog? : Option Catalog} {answer : Call → List Log.Record × Reply}
    (h : AnswersAs catalog? answer) (root path body : String) :
    Agrees catalog? answer (((ofDefault root).measured path body).run answer).1
      (((ofDefault root).measured path body).run answer).2 := by
  obtain ⟨story, hcourse⟩ := (ofDefault root).exists_course path body answer
  rw [run_measured, hcourse.run, run_measured_response]
  cases hcourse with
  | noEvent hmisses => exact agrees_of_refused rfl rfl rfl rfl
  | malformed entry what hentry hbody => exact agrees_of_refused rfl rfl rfl rfl
  | rejected entry payload why t hentry hbody hcreate =>
      cases eq_empty_of_rejected answer (reaches_default_iff.mp hentry).1 hcreate
      exact agrees_of_refused rfl rfl rfl rfl
  | failed entry payload handler failure t u hentry hbody hcreate hperform =>
      rcases accepted_cases answer (reaches_default_iff.mp hentry).1 hcreate with
        ⟨_, _, hping⟩ | ⟨call, about, note, hhands, rfl, hnote, hok, herror⟩
      · rw [hping] at hperform
        cases hperform
      · obtain ⟨faint, jobs, hanswered⟩ := exists_answered h call
        cases hreply : (answer call).2 with
        | ok outcomes =>
            rw [hok outcomes hreply] at hperform
            cases hperform
        | error why =>
            obtain ⟨told, htold⟩ := herror why hreply
            rw [htold] at hperform
            cases hperform
            have hfaint : Faint ((Trace.ofSome note).records ++ faint) :=
              List.forall_mem_append.mpr ⟨hnote, hanswered.note⟩
            refine agrees_of_failed ((Problem.failed entry.name failure).record path entry.name) rfl hfaint
              rfl (show "error while performing reaction to event" ≠ completeMessage by decide) ?_
            have hasked : (Task.asked answer call).records = faint := by
              rw [Task.asked, hanswered.records, hanswered.failed why hreply, List.append_nil]
            simp [Story.trace, hasked, Trace.ofSome]
  | performed entry payload handler result t u hentry hbody hcreate hperform =>
      rcases accepted_cases answer (reaches_default_iff.mp hentry).1 hcreate with
        ⟨hname, rfl, hping⟩ | ⟨call, about, note, hhands, rfl, hnote, hok, herror⟩
      · rw [hping] at hperform
        cases hperform
        exact agrees_of_ping rfl (congrArg some hname) rfl
      · obtain ⟨faint, jobs, hanswered⟩ := exists_answered h call
        cases hreply : (answer call).2 with
        | ok outcomes =>
            rw [hok outcomes hreply] at hperform
            cases hperform
            have hfaint : Faint ((Trace.ofSome note).records ++ faint) :=
              List.forall_mem_append.mpr ⟨hnote, hanswered.note⟩
            have hasked : (Task.asked answer call).records = faint ++ jobs := hanswered.records
            refine agrees_of_triggered entry.name rfl ?_ hreply (hhands.parse_triggered hbody outcomes)
              (field?_messages hhands outcomes) hfaint hanswered.each (hanswered.told outcomes hreply) ?_
            · simp [Story.trace]
            · simp [Story.trace, hasked, Trace.ofSome]
        | error why =>
            obtain ⟨told, htold⟩ := herror why hreply
            rw [htold] at hperform
            cases hperform

/-- Dispatches requests, each with a path and a body, one after another, and measures each. -/
def measuredAll (d : Dispatcher) : List (String × String) → Task (List Response)
  | [] => return []
  | (path, body) :: requests => do
    let response ← d.measured path body
    let responses ← measuredAll d requests
    return response :: responses

/-- How one request of a run went. -/
structure Part (σ : Type) where
  /-- The state of the scheduler when the request came. -/
  state : σ
  response : Response
  trace : Trace

/-- The scheduler is a catalog in every state, or writes nothing in any. -/
def ReactsAs {σ : Type} (catalog? : Option Catalog) (react : Reacting σ) : Prop :=
  ∀ s, AnswersAs catalog? (react.answer s)

/-- The request went like this: its response is about the event that it was resolved to, if any, and what
was seen of it agrees with the response. -/
structure Went {σ : Type} (root : String) (catalog? : Option Catalog) (react : Reacting σ)
    (request : String × String) (p : Part σ) : Prop where
  event : p.response.event = ((ofDefault root).resolve? request.1).map Entry.name
  agrees : Agrees catalog? (react.answer p.state) p.response p.trace

section

variable {σ : Type} {catalog? : Option Catalog} {react : Reacting σ}

/-- A request asks once at most, so it sees one state of the scheduler. -/
theorem exists_part (h : ReactsAs catalog? react) (root : String) (request : String × String) (s : σ) :
    ∃ p s', ((ofDefault root).measured request.1 request.2).runFrom react s =
      (p.response, p.trace, s') ∧ Went root catalog? react request p := by
  obtain ⟨path, body⟩ := request
  have hcalls : (((ofDefault root).measured path body).run (react.answer s)).2.calls.length ≤ 1 := by
    obtain ⟨call?, _, hcalls⟩ := exists_served root path body (react.answer s)
    rw [run_measured, run_measured_response, Trace.calls_append, hcalls]
    cases call? <;> simp
  obtain ⟨s', hrun⟩ := Task.runFrom_of_calls_length react s hcalls
  refine ⟨⟨s, _, _⟩, s', hrun, ?_, agrees_measured (h s) root path body⟩
  rw [run_measured]
  exact event_dispatch _ _ _ _

/-- The records of a level in the log of a run are as many as the responses that bring one. -/
theorem length_atLevel_flatMap {level : Log.Level} {code : Nat} {parts : List (Part σ)}
    (h : ∀ p ∈ parts, (Log.atLevel level p.trace.records).length =
      if p.response.status.code = code then 1 else 0) :
    (Log.atLevel level (parts.flatMap fun p => p.trace.records)).length =
      (parts.map Part.response).countP fun r => r.status.code = code := by
  induction parts with
  | nil => rfl
  | cons p parts ih =>
      have hrest := ih fun q hq => h q (List.mem_cons_of_mem _ hq)
      rw [List.flatMap_cons, atLevel_append, List.length_append, h p List.mem_cons_self, hrest,
        List.map_cons, List.countP_cons, Nat.add_comm]
      simp

/-- The log of a run is made of what its requests wrote, one after another, and agrees with the responses
request by request. So there are as many errors in it as requests failed, and as many warnings as were
refused. -/
theorem log_agrees (h : ReactsAs catalog? react) (root : String) (requests : List (String × String))
    (s : σ) :
    ∃ parts : List (Part σ), List.Forall₂ (Went root catalog? react) requests parts ∧
      (((ofDefault root).measuredAll requests).runFrom react s).1 = parts.map Part.response ∧
      (((ofDefault root).measuredAll requests).runFrom react s).2.1.records =
        parts.flatMap (fun p => p.trace.records) ∧
      (Log.atLevel .error (parts.flatMap fun p => p.trace.records)).length =
        (parts.map Part.response).countP (fun r => r.status.code = 500) ∧
      (Log.atLevel .warn (parts.flatMap fun p => p.trace.records)).length =
        (parts.map Part.response).countP fun r => r.status.code = 400 := by
  have hparts : ∃ parts : List (Part σ), List.Forall₂ (Went root catalog? react) requests parts ∧
      (((ofDefault root).measuredAll requests).runFrom react s).1 = parts.map Part.response ∧
      (((ofDefault root).measuredAll requests).runFrom react s).2.1.records =
        parts.flatMap fun p => p.trace.records := by
    induction requests generalizing s with
    | nil => exact ⟨[], .nil, rfl, rfl⟩
    | cons request requests ih =>
        obtain ⟨p, s', hrun, hwent⟩ := exists_part h root request s
        obtain ⟨parts, hall, hresponses, hrecords⟩ := ih s'
        have hwhole : ((ofDefault root).measuredAll (request :: requests)).runFrom react s =
            (p.response :: (((ofDefault root).measuredAll requests).runFrom react s').1,
              p.trace ++ (((ofDefault root).measuredAll requests).runFrom react s').2.1,
              (((ofDefault root).measuredAll requests).runFrom react s').2.2) := by
          rw [measuredAll, Task.runFrom_bind, hrun]
          simp only [Task.runFrom_bind, pure, Task.runFrom_done, Trace.append_empty]
        rw [hwhole]
        refine ⟨p :: parts, .cons hwent hall, ?_, ?_⟩
        · rw [hresponses, List.map_cons]
        · rw [Trace.records_append, hrecords, List.flatMap_cons]
  obtain ⟨parts, hall, hresponses, hrecords⟩ := hparts
  have hagrees : ∀ p ∈ parts, ∃ request, Went root catalog? react request p := by
    clear hresponses hrecords
    induction hall with
    | nil => exact List.forall_mem_nil _
    | cons hwent _ ih => exact List.forall_mem_cons.mpr ⟨⟨_, hwent⟩, ih⟩
  refine ⟨parts, hall, hresponses, hrecords, length_atLevel_flatMap fun p hp => ?_,
    length_atLevel_flatMap fun p hp => ?_⟩
  · obtain ⟨request, hwent⟩ := hagrees p hp
    exact hwent.agrees.errors
  · obtain ⟨request, hwent⟩ := hagrees p hp
    exact hwent.agrees.warnings

end

/-- A scheduler that writes nothing, and is busy each second time it is asked. -/
def busy : Reacting Nat := fun n _ =>
  (([], if n % 2 = 0 then .ok [⟨"ci", .buildScheduled⟩] else .error (.of "busy")), n + 1)

/-- Two pushes, of which the second one finds the scheduler busy, and a request for nothing. -/
def busyRequests : List (String × String) :=
  [("/events/gitPush", leanPush), ("/events/gitPush", leanPush), ("/events/nothing", "\x7b\x7d")]

theorem log_agrees_busy :
    ReactsAs none busy ∧ ∃ parts : List (Part Nat),
      List.Forall₂ (Went "events" none busy) busyRequests parts ∧
      (parts.map fun p => p.response.status.code) = [200, 500, 400] ∧
      (Log.atLevel .error (parts.flatMap fun p => p.trace.records)).length = 1 ∧
      (Log.atLevel .warn (parts.flatMap fun p => p.trace.records)).length = 1 := by
  have hreacts : ReactsAs none busy := fun _ _ => rfl
  obtain ⟨parts, hall, hresponses, _, herrors, hwarnings⟩ :=
    log_agrees hreacts "events" busyRequests 0
  have hcodes : (((ofDefault "events").measuredAll busyRequests).runFrom busy 0).1.map
      (fun r => r.status.code) = [200, 500, 400] := by decide +kernel
  have hfailed : (((ofDefault "events").measuredAll busyRequests).runFrom busy 0).1.countP
      (fun r => r.status.code = 500) = 1 := by decide +kernel
  have hrefused : (((ofDefault "events").measuredAll busyRequests).runFrom busy 0).1.countP
      (fun r => r.status.code = 400) = 1 := by decide +kernel
  rw [hresponses] at hcodes hfailed hrefused
  rw [List.map_map] at hcodes
  exact ⟨hreacts, parts, hall, hcodes, herrors.trans hfailed, hwarnings.trans hrefused⟩

end Dispatcher

end BuildHooks
