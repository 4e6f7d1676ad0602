import BuildHooks.Event.Task

/-! The run of a task that goes on with another is the run of the one followed by the run of the other:
results are handed on and traces are put behind each other. So whatever a task does is in the trace of
what it is a part of, once for each time it is run there. -/

namespace BuildHooks

namespace Trace

variable (s t u : Trace)

@[simp] theorem records_append : (s ++ t).records = s.records ++ t.records := rfl

@[simp] theorem metrics_append : (s ++ t).metrics = s.metrics ++ t.metrics := rfl

@[simp] theorem calls_append : (s ++ t).calls = s.calls ++ t.calls := rfl

@[simp] theorem records_empty : empty.records = [] := rfl

@[simp] theorem metrics_empty : empty.metrics = [] := rfl

@[simp] theorem calls_empty : empty.calls = [] := rfl

theorem eq_of_parts {s t : Trace} (hrecords : s.records = t.records)
    (hmetrics : s.metrics = t.metrics) (hcalls : s.calls = t.calls) : s = t := by
  cases s
  cases t
  cases hrecords
  cases hmetrics
  cases hcalls
  rfl

@[simp] theorem empty_append : empty ++ t = t := rfl

@[simp] theorem append_empty : s ++ empty = s :=
  eq_of_parts (List.append_nil _) (List.append_nil _) (List.append_nil _)

theorem append_assoc : s ++ t ++ u = s ++ (t ++ u) :=
  eq_of_parts (List.append_assoc ..) (List.append_assoc ..) (List.append_assoc ..)

/-- The trace of one record alone. -/
def ofRecord (record : Log.Record) : Trace :=
  ⟨[record], [], []⟩

/-- The trace of one measurement alone. -/
def ofMetric (metric : Metric) : Trace :=
  ⟨[], [metric], []⟩

@[simp] theorem records_ofRecord (r : Log.Record) : (ofRecord r).records = [r] := rfl

@[simp] theorem metrics_ofRecord (r : Log.Record) : (ofRecord r).metrics = [] := rfl

@[simp] theorem calls_ofRecord (r : Log.Record) : (ofRecord r).calls = [] := rfl

@[simp] theorem records_ofMetric (m : Metric) : (ofMetric m).records = [] := rfl

@[simp] theorem metrics_ofMetric (m : Metric) : (ofMetric m).metrics = [m] := rfl

@[simp] theorem calls_ofMetric (m : Metric) : (ofMetric m).calls = [] := rfl

end Trace

namespace Task

variable {α β : Type} (answer : Call → List Log.Record × Reply)

@[simp] theorem run_pure (a : α) : (pure a : Task α).run answer = (a, .empty) := rfl

@[simp] theorem run_done (a : α) : (done a).run answer = (a, .empty) := rfl

theorem run_note (r : Log.Record) (next : Task α) :
    (note r next).run answer = ((next.run answer).1, .ofRecord r ++ (next.run answer).2) := rfl

theorem run_measure (m : Metric) (next : Task α) :
    (measure m next).run answer = ((next.run answer).1, .ofMetric m ++ (next.run answer).2) := rfl

/-- What the scheduler does when it is asked: its records, and that it was asked. -/
def asked (c : Call) : Trace :=
  ⟨(answer c).1, [], [c]⟩

@[simp] theorem calls_asked (c : Call) : (asked answer c).calls = [c] := rfl

theorem run_ask (c : Call) (next : Reply → Task α) :
    (ask c next).run answer =
      (((next (answer c).2).run answer).1,
       asked answer c ++ ((next (answer c).2).run answer).2) := rfl

theorem run_bind (t : Task α) (f : α → Task β) :
    (t >>= f).run answer =
      (((f (t.run answer).1).run answer).1,
       (t.run answer).2 ++ ((f (t.run answer).1).run answer).2) := by
  change (t.bind f).run answer = _
  induction t with
  | done a => rfl
  | note r next ih =>
      simp only [bind, run_note, ih, Trace.append_assoc]
  | measure m next ih =>
      simp only [bind, run_measure, ih, Trace.append_assoc]
  | ask c next ih =>
      simp only [bind, run_ask, ih, Trace.append_assoc]

@[simp] theorem run_write (r : Log.Record) : (write r).run answer = ((), .ofRecord r) := rfl

@[simp] theorem run_record (m : Metric) : (record m).run answer = ((), .ofMetric m) := rfl

@[simp] theorem run_call (c : Call) : (call c).run answer = ((answer c).2, asked answer c) := by
  rw [call, run_ask, run_done, Trace.append_empty]

end Task

end BuildHooks
