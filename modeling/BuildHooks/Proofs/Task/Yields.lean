import BuildHooks.Event.Task

/-! What every result of a task has in common, whatever the scheduler replies, and how far a task goes
before it has to be replied to. -/

namespace BuildHooks.Task

variable {α β : Type}

/-- Whatever is replied to the task, its result has the property. -/
def Yields (holds : α → Prop) : Task α → Prop
  | done a => holds a
  | note _ next => Yields holds next
  | measure _ next => Yields holds next
  | ask _ next => ∀ reply, Yields holds (next reply)

theorem yields_bind {holds : β → Prop} (t : Task α) {f : α → Task β}
    (h : ∀ a, (f a).Yields holds) : (t >>= f).Yields holds := by
  change (t.bind f).Yields holds
  induction t with
  | done a => exact h a
  | note record next ih => exact ih
  | measure metric next ih => exact ih
  | ask call next ih => exact ih

/-- Goes on with a task until it is done or has to wait: what it measures on the way, and where it
stops. -/
def settle : Task α → List Metric × Stop α
  | done a => ([], .finished a)
  | note _ next => settle next
  | measure metric next => (metric :: (settle next).1, (settle next).2)
  | ask call next => ([], .waiting call next)

/-- What holds of all results of a task holds of all results of what is left of it. -/
def Stop.Yields (holds : α → Prop) : Stop α → Prop
  | .finished a => holds a
  | .waiting _ next => ∀ reply, (next reply).Yields holds

theorem yields_settle {holds : α → Prop} {t : Task α} (h : t.Yields holds) :
    t.settle.2.Yields holds := by
  induction t with
  | done a => exact h
  | note record next ih => exact ih h
  | measure metric next ih => exact ih h
  | ask call next ih => exact h

end BuildHooks.Task
