import BuildHooks.Proofs.Task.Run

/-! A task run with a scheduler that has a state. Nothing is assumed of the scheduler but that it replies:
a reply may hang on all that it was asked before. What is observed of the task is its result, its calls,
its measurements and the state that it leaves the scheduler in. Its records are not looked at, so two
tasks that write different records may be observed alike. -/

namespace BuildHooks

/-- What is observed of a task besides its records. -/
structure Observed (σ α : Type) where
  result : α
  calls : List Call
  metrics : List Metric
  /-- The state that the scheduler was left in. -/
  state : σ
deriving DecidableEq, Repr

namespace Task

variable {σ α β : Type}

/-- The task run with a scheduler that replies by its state. -/
def observe (react : σ → Call → Reply × σ) (s : σ) : Task α → Observed σ α
  | done a => ⟨a, [], [], s⟩
  | note _ next => observe react s next
  | measure m next =>
    let o := observe react s next
    { o with metrics := m :: o.metrics }
  | ask c next =>
    let (reply, s) := react s c
    let o := observe react s (next reply)
    { o with calls := c :: o.calls }

variable (react : σ → Call → Reply × σ) (s : σ)

@[simp] theorem observe_pure (a : α) : (pure a : Task α).observe react s = ⟨a, [], [], s⟩ := rfl

theorem observe_measure (m : Metric) (next : Task α) :
    (measure m next).observe react s =
      { next.observe react s with metrics := m :: (next.observe react s).metrics } := rfl

theorem observe_ask (c : Call) (next : Reply → Task α) :
    (ask c next).observe react s =
      { (next (react s c).1).observe react (react s c).2 with
        calls := c :: ((next (react s c).1).observe react (react s c).2).calls } := rfl

/-- What goes on with a task starts from the state that the task left. -/
theorem observe_bind (t : Task α) (f : α → Task β) :
    (t >>= f).observe react s =
      let o := t.observe react s
      let rest := (f o.result).observe react o.state
      ⟨rest.result, o.calls ++ rest.calls, o.metrics ++ rest.metrics, rest.state⟩ := by
  change (t.bind f).observe react s = _
  induction t generalizing s with
  | done a => rfl
  | note r next ih => exact ih s
  | measure m next ih =>
      simp only [bind, observe_measure, ih, List.cons_append]
  | ask c next ih =>
      simp only [bind, observe_ask, ih, List.cons_append]

/-- A scheduler without a state sees what the run of the task shows. -/
theorem observe_run (answer : Call → List Log.Record × Reply) (t : Task α) :
    t.observe (fun s c => ((answer c).2, s)) () =
      ⟨(t.run answer).1, (t.run answer).2.calls, (t.run answer).2.metrics, ()⟩ := by
  induction t with
  | done a => rfl
  | note r next ih =>
      rw [run_note]
      exact ih
  | measure m next ih =>
      rw [observe_measure, ih, run_measure]
      rfl
  | ask c next ih =>
      rw [observe_ask, ih, run_ask]
      rfl

end Task

end BuildHooks
