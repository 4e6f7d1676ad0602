import BuildHooks.Proofs.Task.Run

/-! A task run with a scheduler that has a state, with all that it lets others see. What the scheduler
replies may hang on what it was asked before, by this task or by others. A task that asks once at most is
run as with a scheduler that always is in its first state. -/

namespace BuildHooks

/-- A scheduler with states of this type: its records and its reply to a call, and its next state. -/
abbrev Reacting (σ : Type) : Type :=
  σ → Call → (List Log.Record × Reply) × σ

/-- The scheduler as it is in one state. -/
def Reacting.answer {σ : Type} (react : Reacting σ) (s : σ) (call : Call) : List Log.Record × Reply :=
  (react s call).1

namespace Task

variable {σ α β : Type} (react : Reacting σ) (s : σ)

/-- The task run with a scheduler in some state, and the state it is left in. -/
def runFrom : σ → Task α → α × Trace × σ
  | s, done a => (a, .empty, s)
  | s, note r next =>
    let (a, t, s') := runFrom s next
    (a, .ofRecord r ++ t, s')
  | s, measure m next =>
    let (a, t, s') := runFrom s next
    (a, .ofMetric m ++ t, s')
  | s, ask c next =>
    let (a, t, s') := runFrom (react s c).2 (next (react s c).1.2)
    (a, asked (react.answer s) c ++ t, s')

theorem runFrom_done (a : α) : (done a).runFrom react s = (a, .empty, s) := rfl

theorem runFrom_note (r : Log.Record) (next : Task α) :
    (note r next).runFrom react s =
      ((next.runFrom react s).1, .ofRecord r ++ (next.runFrom react s).2.1,
        (next.runFrom react s).2.2) := rfl

theorem runFrom_measure (m : Metric) (next : Task α) :
    (measure m next).runFrom react s =
      ((next.runFrom react s).1, .ofMetric m ++ (next.runFrom react s).2.1,
        (next.runFrom react s).2.2) := rfl

theorem runFrom_ask (c : Call) (next : Reply → Task α) :
    (ask c next).runFrom react s =
      (((next (react.answer s c).2).runFrom react (react s c).2).1,
        asked (react.answer s) c ++ ((next (react.answer s c).2).runFrom react (react s c).2).2.1,
        ((next (react.answer s c).2).runFrom react (react s c).2).2.2) := rfl

/-- What goes on with a task starts from the state that the task left. -/
theorem runFrom_bind (t : Task α) (f : α → Task β) :
    (t >>= f).runFrom react s =
      let (a, u, s') := t.runFrom react s
      let (b, v, s'') := (f a).runFrom react s'
      (b, u ++ v, s'') := by
  change (t.bind f).runFrom react s = _
  induction t generalizing s with
  | done a => rfl
  | note r next ih => simp only [bind, runFrom_note, ih, Trace.append_assoc]
  | measure m next ih => simp only [bind, runFrom_measure, ih, Trace.append_assoc]
  | ask c next ih => simp only [bind, runFrom_ask, ih, Trace.append_assoc]

/-- A task that asks nothing leaves the scheduler as it is. -/
theorem runFrom_of_calls_eq_nil {answer : Call → List Log.Record × Reply} {t : Task α}
    (h : (t.run answer).2.calls = []) : t.runFrom react s = ((t.run answer).1, (t.run answer).2, s) := by
  induction t with
  | done a => rfl
  | note r next ih => rw [runFrom_note, ih h, run_note]
  | measure m next ih => rw [runFrom_measure, ih h, run_measure]
  | ask c next ih =>
      rw [run_ask, Trace.calls_append, calls_asked] at h
      cases h

/-- A task that asks once at most sees one state of the scheduler. -/
theorem runFrom_of_calls_length {t : Task α} (h : (t.run (react.answer s)).2.calls.length ≤ 1) :
    ∃ s', t.runFrom react s = ((t.run (react.answer s)).1, (t.run (react.answer s)).2, s') := by
  induction t with
  | done a => exact ⟨s, rfl⟩
  | note r next ih =>
      obtain ⟨s', hs'⟩ := ih h
      exact ⟨s', by rw [runFrom_note, hs', run_note]⟩
  | measure m next ih =>
      obtain ⟨s', hs'⟩ := ih h
      exact ⟨s', by rw [runFrom_measure, hs', run_measure]⟩
  | ask c next ih =>
      rw [run_ask, Trace.calls_append, calls_asked, List.length_append, List.length_singleton] at h
      have hnone := List.eq_nil_of_length_eq_zero (by omega :
        ((next (react.answer s c).2).run (react.answer s)).2.calls.length = 0)
      exact ⟨_, by rw [runFrom_ask, runFrom_of_calls_eq_nil react _ hnone, run_ask]⟩

end Task

end BuildHooks
