import BuildHooks.Proofs.Task.Observe

/-! A task without its records. Two tasks that are the same without them ask the scheduler the same and
measure the same, go on alike after every reply and come to the same result: nobody but a reader of the
log can tell them apart. -/

namespace BuildHooks

/-- What a trace shows besides records. -/
def Trace.silent (t : Trace) : Trace :=
  ⟨[], t.metrics, t.calls⟩

theorem Trace.silent_append (t u : Trace) : (t ++ u).silent = t.silent ++ u.silent := rfl

namespace Task

variable {α β : Type}

/-- The task without its records. -/
def silent : Task α → Task α
  | done a => done a
  | note _ next => silent next
  | measure m next => measure m (silent next)
  | ask call next => ask call fun reply => silent (next reply)

/-- What is left of a task where it stopped, without its records. -/
def Stop.silent : Stop α → Stop α
  | .finished a => .finished a
  | .waiting call next => .waiting call fun reply => (next reply).silent

theorem silent_bind (t : Task α) (f : α → Task β) :
    (t >>= f).silent = t.silent >>= fun a => (f a).silent := by
  change (t.bind f).silent = t.silent.bind fun a => (f a).silent
  induction t with
  | done a => rfl
  | note r next ih => exact ih
  | measure m next ih => rw [bind, silent, silent, bind, ih]
  | ask call next ih =>
      rw [bind, silent, silent, bind]
      exact congrArg (ask call) (funext fun reply => ih reply)

/-- Records are not observed. -/
theorem observe_silent {σ : Type} (react : σ → Call → Reply × σ) (s : σ) (t : Task α) :
    t.silent.observe react s = t.observe react s := by
  induction t generalizing s with
  | done a => rfl
  | note r next ih => exact ih s
  | measure m next ih => rw [silent, observe_measure, observe_measure, ih]
  | ask call next ih => rw [silent, observe_ask, observe_ask, ih]

theorem observe_eq_of_silent_eq {t t' : Task α} (h : t'.silent = t.silent) {σ : Type}
    (react : σ → Call → Reply × σ) (s : σ) : t'.observe react s = t.observe react s := by
  rw [← observe_silent, h, observe_silent]

end Task

end BuildHooks
