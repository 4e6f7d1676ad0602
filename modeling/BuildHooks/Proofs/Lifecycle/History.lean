import Mathlib.Data.Set.Card
import BuildHooks.Lifecycle

/-! The life of a host is decided by what happened to it. Shutdown was asked for exactly if it was
triggered, the guards that are held are those that were given out and not taken back since, and the state
of health is read off the history without following it. Whoever waits for what is in flight takes looks
between which others go on, so a wait is a part of the history and no step of its own. -/

namespace BuildHooks

/-- How far the life of a host has gone. -/
def Health.stage : Health → Nat
  | .starting => 0
  | .ready => 1
  | .draining => 2
  | .stopped => 3

namespace Lifecycle

inductive Step where
  | setReady
  | trigger
  | acquire
  | release (guardNumber : Nat)
  /-- Somebody who waits looks whether anything is in flight. -/
  | look
deriving DecidableEq, Repr

def step (l : Lifecycle) : Step → Lifecycle
  | .setReady => l.setReady
  | .trigger => l.trigger
  | .acquire => l.acquire.2
  | .release n => (l.release n).2
  | .look => l.drain.2

def run (l : Lifecycle) (steps : List Step) : Lifecycle :=
  steps.foldl step l

/-- The life of a host to which this happened. -/
def after (steps : List Step) : Lifecycle :=
  fresh.run steps

/-- Waits until nothing is in flight. As long as something is, the others take the steps of one more of
the `turns` before it looks again; when there are no turns left the time is over. -/
def wait (l : Lifecycle) : List (List Step) → Bool × Lifecycle
  | [] => l.drain
  | others :: turns => if l.drain.1 then l.drain else wait (l.drain.2.run others) turns

/-! ### What a history says -/

/-- The guard with this number was given out and not taken back since. The guards are numbered from zero
in the order in which they are given out. -/
def Held (steps : List Step) (n : Nat) : Prop :=
  ∃ before later, steps = before ++ .acquire :: later ∧ before.count .acquire = n ∧
    .release n ∉ later

def Idle (steps : List Step) : Prop :=
  ∀ n, ¬Held steps n

/-- After shutdown was asked for, somebody looked and no guard was held. -/
def Drained (steps : List Step) : Prop :=
  ∃ before later, steps = before ++ .look :: later ∧ .trigger ∈ before ∧ Idle before

/-- What has happened when a wait that began after `steps` looks again after some turns. -/
def atLook (steps : List Step) (turns : List (List Step)) : List Step :=
  steps ++ turns.flatMap fun others => .look :: others

/-- All that can be seen of a host to which this happened is told by the history. -/
structure Told (steps : List Step) : Prop where
  signalled : (after steps).signalled = true ↔ .trigger ∈ steps
  /-- Whoever has waited for the signal since any moment has got it. -/
  noticed : ∀ earlier later, steps = earlier ++ later →
    ((∃ seen, seen <+: later ∧ (after (earlier ++ seen)).signalled = true) ↔ .trigger ∈ steps)
  stopped : (after steps).health = .stopped ↔ Drained steps
  draining : (after steps).health = .draining ↔ .trigger ∈ steps ∧ ¬Drained steps
  ready : (after steps).health = .ready ↔ .trigger ∉ steps ∧ .setReady ∈ steps
  starting : (after steps).health = .starting ↔ .trigger ∉ steps ∧ .setReady ∉ steps
  inFlight : (after steps).inFlight = {n | Held steps n}.ncard
  /-- A look finds nothing in flight exactly if no guard is held. -/
  found : (after steps).drain.1 = true ↔ Idle steps
  /-- A look stops a host that drains and has nothing in flight, and changes nothing else. -/
  left : (Idle steps ∧ (after steps).health = .draining ∧
      after (steps ++ [.look]) = { after steps with health := .stopped }) ∨
    (¬(Idle steps ∧ (after steps).health = .draining) ∧ after (steps ++ [.look]) = after steps)
  /-- A wait looks until no guard is held or its time is over, and comes to what its last look found. -/
  waited : ∀ turns, ∃ k ≤ turns.length,
    (∀ j < k, ¬Idle (atLook steps (turns.take j))) ∧
    (((after steps).wait turns).1 = true ↔ Idle (atLook steps (turns.take k))) ∧
    (((after steps).wait turns).1 = false → k = turns.length) ∧
    ((after steps).wait turns).2 = after (atLook steps (turns.take k) ++ [.look])
  /-- The life never goes back. -/
  forward : ∀ earlier, earlier <+: steps →
    (after earlier).health.stage ≤ (after steps).health.stage
  /-- Once shutdown is asked for, no event is accepted any more. -/
  refusing : .trigger ∈ steps → (after steps).health.acceptsEvents = false

variable {steps : List Step}

/-! ### One step more -/

theorem after_append (steps others : List Step) : after (steps ++ others) = (after steps).run others :=
  List.foldl_append

theorem after_concat (steps : List Step) (s : Step) : after (steps ++ [s]) = (after steps).step s :=
  after_append steps [s]

/-- Where a step stands in a history that is one step longer: at its end or before. -/
theorem concat_eq_append_cons_iff {s x : Step} {before later : List Step} :
    steps ++ [s] = before ++ x :: later ↔
      (before = steps ∧ x = s ∧ later = []) ∨
        ∃ later', later = later' ++ [s] ∧ steps = before ++ x :: later' := by
  constructor
  · intro h
    rcases List.eq_nil_or_concat later with rfl | ⟨later', t, rfl⟩
    · obtain ⟨rfl, hs⟩ := List.append_inj' h rfl
      cases hs
      exact .inl ⟨rfl, rfl, rfl⟩
    · rw [List.concat_eq_append, ← List.cons_append, ← List.append_assoc] at h
      obtain ⟨rfl, hs⟩ := List.append_inj' h rfl
      cases hs
      exact .inr ⟨later', List.concat_eq_append, rfl⟩
  · rintro (⟨rfl, rfl, rfl⟩ | ⟨later', rfl, rfl⟩)
    · rfl
    · simp

theorem held_concat_iff {s : Step} {n : Nat} :
    Held (steps ++ [s]) n ↔
      (s = .acquire ∧ steps.count .acquire = n) ∨ (Held steps n ∧ s ≠ .release n) := by
  unfold Held
  constructor
  · rintro ⟨before, later, hsteps, hcount, hlater⟩
    rcases concat_eq_append_cons_iff.mp hsteps with ⟨rfl, rfl, rfl⟩ | ⟨later', rfl, rfl⟩
    · exact .inl ⟨rfl, hcount⟩
    · rw [List.mem_append, List.mem_singleton, not_or] at hlater
      exact .inr ⟨⟨before, later', rfl, hcount, hlater.1⟩, fun hs => hlater.2 hs.symm⟩
  · rintro (⟨rfl, hcount⟩ | ⟨⟨before, later, rfl, hcount, hlater⟩, hs⟩)
    · exact ⟨steps, [], rfl, hcount, List.not_mem_nil⟩
    · refine ⟨before, later ++ [s], by simp, hcount, ?_⟩
      rw [List.mem_append, List.mem_singleton, not_or]
      exact ⟨hlater, fun hrelease => hs hrelease.symm⟩

theorem drained_concat_iff {s : Step} :
    Drained (steps ++ [s]) ↔ Drained steps ∨ (s = .look ∧ .trigger ∈ steps ∧ Idle steps) := by
  unfold Drained
  constructor
  · rintro ⟨before, later, hsteps, htrigger, hidle⟩
    rcases concat_eq_append_cons_iff.mp hsteps with ⟨rfl, rfl, rfl⟩ | ⟨later', rfl, rfl⟩
    · exact .inr ⟨rfl, htrigger, hidle⟩
    · exact .inl ⟨before, later', rfl, htrigger, hidle⟩
  · rintro (⟨before, later, rfl, htrigger, hidle⟩ | ⟨rfl, htrigger, hidle⟩)
    · exact ⟨before, later ++ [s], by simp, htrigger, hidle⟩
    · exact ⟨steps, [], rfl, htrigger, hidle⟩

theorem nil_ne_append_cons {s : Step} {before later : List Step} : [] ≠ before ++ s :: later :=
  (List.append_ne_nil_of_right_ne_nil _ (List.cons_ne_nil _ _)).symm

theorem not_held_nil (n : Nat) : ¬Held [] n :=
  fun ⟨_, _, hsteps, _⟩ => nil_ne_append_cons hsteps

theorem not_drained_nil : ¬Drained [] :=
  fun ⟨_, _, hsteps, _⟩ => nil_ne_append_cons hsteps

/-! ### The guards -/

/-- The guards that are held are those that the history says. -/
structure Guarded (steps : List Step) (l : Lifecycle) : Prop where
  issued : l.issued = steps.count .acquire
  nodup : l.held.Nodup
  below : ∀ n ∈ l.held, n < l.issued
  mem : ∀ n, n ∈ l.held ↔ Held steps n

variable {l : Lifecycle}

/-- A step that neither gives a guard out nor takes one back. -/
theorem Guarded.unchanged (h : Guarded steps l) {s : Step} {l' : Lifecycle} (hacquire : s ≠ .acquire)
    (hrelease : ∀ n, s ≠ .release n) (hissued : l'.issued = l.issued) (hheld : l'.held = l.held) :
    Guarded (steps ++ [s]) l' where
  issued := by
    rw [hissued, h.issued, List.count_append, List.count_singleton, beq_false_of_ne hacquire]
    rfl
  nodup := hheld ▸ h.nodup
  below := by
    rw [hheld, hissued]
    exact h.below
  mem := by
    intro n
    rw [hheld, h.mem n, held_concat_iff]
    exact ⟨fun hn => .inr ⟨hn, hrelease n⟩, fun hn => hn.elim (fun ha => absurd ha.1 hacquire) And.left⟩

theorem Guarded.acquire (h : Guarded steps l) : Guarded (steps ++ [.acquire]) l.acquire.2 where
  issued := by
    change l.issued + 1 = _
    rw [h.issued, List.count_append, List.count_singleton_self]
  nodup := by
    refine h.nodup.append (List.nodup_singleton _) fun n hn hnew => ?_
    rw [List.mem_singleton.mp hnew] at hn
    exact absurd (h.below _ hn) (Nat.lt_irrefl _)
  below := by
    intro n hn
    rcases List.mem_append.mp hn with hn | hn
    · exact Nat.lt_succ_of_lt (h.below n hn)
    · rw [List.mem_singleton.mp hn]
      exact Nat.lt_succ_self _
  mem := by
    intro n
    change n ∈ l.held ++ [l.issued] ↔ _
    rw [List.mem_append, List.mem_singleton, h.mem n, held_concat_iff, h.issued]
    constructor
    · rintro (hn | rfl)
      · exact .inr ⟨hn, by simp⟩
      · exact .inl ⟨rfl, rfl⟩
    · rintro (⟨_, rfl⟩ | ⟨hn, _⟩)
      · exact .inr rfl
      · exact .inl hn

theorem Guarded.release (h : Guarded steps l) (m : Nat) :
    Guarded (steps ++ [.release m]) (l.release m).2 where
  issued := by
    change l.issued = _
    rw [h.issued, List.count_append, List.count_singleton]
    rfl
  nodup := h.nodup.erase m
  below := fun n hn => h.below n (List.mem_of_mem_erase hn)
  mem := by
    intro n
    change n ∈ l.held.erase m ↔ _
    rw [h.nodup.mem_erase_iff, h.mem n, held_concat_iff]
    constructor
    · rintro ⟨hne, hn⟩
      exact .inr ⟨hn, fun hm => hne (Step.release.inj hm).symm⟩
    · rintro (⟨hm, _⟩ | ⟨hn, hne⟩)
      · cases hm
      · exact ⟨fun hm => hne (by rw [hm]), hn⟩

theorem setReady_eq (l : Lifecycle) :
    l.setReady = { l with health := if l.health = .starting then .ready else l.health } := by
  unfold setReady
  split <;> rfl

/-- What a look comes to. -/
theorem drain_eq (l : Lifecycle) :
    l.drain = (l.held.isEmpty,
      { l with health := if l.held = [] ∧ l.health = .draining then .stopped else l.health }) := by
  obtain ⟨health, signalled, issued, held⟩ := l
  cases held with
  | nil => by_cases h : health = .draining <;> simp [drain, h]
  | cons n held => simp [drain]

theorem guarded_after (steps : List Step) : Guarded steps (after steps) := by
  induction steps using List.reverseRecOn with
  | nil =>
      exact
        { issued := rfl
          nodup := List.nodup_nil
          below := fun n hn => absurd hn List.not_mem_nil
          mem := fun n => iff_of_false List.not_mem_nil (not_held_nil n) }
  | append_singleton steps s ih =>
      rw [after_concat]
      cases s with
      | setReady =>
          rw [step, setReady_eq]
          exact ih.unchanged (by simp) (by simp) rfl rfl
      | trigger => exact ih.unchanged (by simp) (by simp) rfl rfl
      | acquire => exact ih.acquire
      | release n => exact ih.release n
      | look =>
          rw [step, drain_eq]
          exact ih.unchanged (by simp) (by simp) rfl rfl

theorem held_eq_nil_iff (steps : List Step) : (after steps).held = [] ↔ Idle steps := by
  rw [List.eq_nil_iff_forall_not_mem]
  exact forall_congr' fun n => not_congr ((guarded_after steps).mem n)

theorem inFlight_eq_ncard (steps : List Step) :
    (after steps).inFlight = {n | Held steps n}.ncard := by
  have h := guarded_after steps
  have hset : {n | Held steps n} = ((after steps).held.toFinset : Set Nat) := by
    ext n
    rw [Set.mem_ofPred_eq, List.coe_toFinset, Set.mem_ofPred_eq, h.mem n]
  rw [hset, Set.ncard_coe_finset, List.toFinset_card_of_nodup h.nodup]
  rfl

/-! ### The state of health -/

/-- The state of health and the signal are those that the history says. -/
structure Aged (steps : List Step) (l : Lifecycle) : Prop where
  signalled : l.signalled = true ↔ .trigger ∈ steps
  accepts : l.health.acceptsEvents = true ↔ .trigger ∉ steps
  starting : l.health = .starting ↔ .trigger ∉ steps ∧ .setReady ∉ steps
  stopped : l.health = .stopped ↔ Drained steps

variable {s : Step}

/-- A step that has nothing to do with health. -/
theorem Aged.unchanged (h : Aged steps l) {l' : Lifecycle} (htrigger : s ≠ .trigger)
    (hready : s ≠ .setReady) (hlook : s ≠ .look) (hhealth : l'.health = l.health)
    (hsignalled : l'.signalled = l.signalled) : Aged (steps ++ [s]) l' where
  signalled := by
    rw [hsignalled, h.signalled]
    simp [htrigger.symm]
  accepts := by
    rw [hhealth, h.accepts]
    simp [htrigger.symm]
  starting := by
    rw [hhealth, h.starting]
    simp [htrigger.symm, hready.symm]
  stopped := by
    rw [hhealth, h.stopped, drained_concat_iff]
    simp [hlook]

theorem Aged.setReady (h : Aged steps l) : Aged (steps ++ [.setReady]) l.setReady := by
  have hsignalled := h.signalled
  have haccepts := h.accepts
  have hstopped := h.stopped
  rw [setReady_eq]
  constructor
  · simpa using hsignalled
  · cases hhealth : l.health <;> simp_all [Health.acceptsEvents]
  · cases hhealth : l.health <;> simp_all
  · rw [drained_concat_iff]
    cases hhealth : l.health <;> simp_all

theorem Aged.trigger (h : Aged steps l) : Aged (steps ++ [.trigger]) l.trigger := by
  have hstopped := h.stopped
  unfold Lifecycle.trigger
  constructor
  · simp
  · cases hhealth : l.health <;> simp [Health.acceptsEvents]
  · cases hhealth : l.health <;> simp [Health.acceptsEvents]
  · rw [drained_concat_iff, ← hstopped]
    cases hhealth : l.health <;> simp [Health.acceptsEvents]

/-- Once shutdown was asked for the host drains or has stopped. -/
theorem Aged.trigger_mem_iff (h : Aged steps l) :
    .trigger ∈ steps ↔ l.health = .draining ∨ l.health = .stopped := by
  rw [← not_iff_not, ← h.accepts]
  cases l.health <;> simp [Health.acceptsEvents]

theorem Aged.look (h : Aged steps l) (hheld : l.held = [] ↔ Idle steps) :
    Aged (steps ++ [.look]) l.drain.2 := by
  have htrigger := h.trigger_mem_iff
  rw [drain_eq]
  by_cases hdrains : l.held = [] ∧ l.health = .draining
  · rw [if_pos hdrains]
    have hmem : .trigger ∈ steps := htrigger.mpr (.inl hdrains.2)
    constructor
    · simpa using h.signalled
    · simp [Health.acceptsEvents, hmem]
    · simp [hmem]
    · simp [drained_concat_iff, hmem, hheld.mp hdrains.1]
  · rw [if_neg hdrains]
    constructor
    · simpa using h.signalled
    · simpa using h.accepts
    · simpa using h.starting
    · rw [drained_concat_iff, ← h.stopped]
      constructor
      · exact .inl
      · rintro (hstopped | ⟨_, hmem, hidle⟩)
        · exact hstopped
        · exact (htrigger.mp hmem).resolve_left fun hdraining => hdrains ⟨hheld.mpr hidle, hdraining⟩

theorem aged_after (steps : List Step) : Aged steps (after steps) := by
  induction steps using List.reverseRecOn with
  | nil =>
      exact
        { signalled := by simp [after, run, fresh]
          accepts := by simp [after, run, fresh, Health.acceptsEvents]
          starting := by simp [after, run, fresh]
          stopped := by simp [after, run, fresh, not_drained_nil] }
  | append_singleton steps s ih =>
      rw [after_concat]
      cases s with
      | setReady => exact ih.setReady
      | trigger => exact ih.trigger
      | acquire => exact ih.unchanged (by simp) (by simp) (by simp) rfl rfl
      | release n => exact ih.unchanged (by simp) (by simp) (by simp) rfl rfl
      | look => exact ih.look (held_eq_nil_iff steps)

/-! ### Going on -/

theorem stage_le_step (l : Lifecycle) (s : Step) : l.health.stage ≤ (l.step s).health.stage := by
  cases s with
  | setReady =>
      have hready : ∀ h : Health, h.stage ≤ (if h = .starting then Health.ready else h).stage := by
        rintro (_ | _ | _ | _) <;> decide
      rw [step, setReady_eq]
      exact hready l.health
  | trigger =>
      have hdrains : ∀ h : Health, h.stage ≤ (if h.acceptsEvents then Health.draining else h).stage := by
        rintro (_ | _ | _ | _) <;> decide
      exact hdrains l.health
  | acquire => exact Nat.le_refl _
  | release n => exact Nat.le_refl _
  | look =>
      rw [step, drain_eq]
      dsimp only
      split
      · next hdrains =>
        rw [hdrains.2]
        decide
      · exact Nat.le_refl _

theorem stage_le_run (l : Lifecycle) (steps : List Step) :
    l.health.stage ≤ (l.run steps).health.stage := by
  induction steps generalizing l with
  | nil => exact Nat.le_refl _
  | cons s steps ih => exact (stage_le_step l s).trans (ih (l.step s))

/-- Events are accepted as long as nobody asks for shutdown. -/
theorem acceptsEvents_step (l : Lifecycle) (s : Step) :
    (l.step s).health.acceptsEvents = true ↔ l.health.acceptsEvents = true ∧ s ≠ .trigger := by
  cases s with
  | setReady =>
      rw [step, setReady_eq]
      cases l.health <;> simp [Health.acceptsEvents]
  | trigger =>
      rw [step, trigger]
      cases l.health <;> simp [Health.acceptsEvents]
  | acquire => simp [step, acquire]
  | release n => simp [step, release]
  | look =>
      rw [step, drain_eq]
      by_cases hdrains : l.held = [] ∧ l.health = .draining
      · simp [hdrains, Health.acceptsEvents]
      · simp [hdrains]

theorem acceptsEvents_run (l : Lifecycle) (steps : List Step) :
    (l.run steps).health.acceptsEvents = true ↔
      l.health.acceptsEvents = true ∧ .trigger ∉ steps := by
  induction steps generalizing l with
  | nil => simp [run]
  | cons s steps ih =>
      calc
        ((l.step s).run steps).health.acceptsEvents = true
          ↔ (l.step s).health.acceptsEvents = true ∧ .trigger ∉ steps := ih (l.step s)
        _ ↔ (l.health.acceptsEvents = true ∧ s ≠ .trigger) ∧ .trigger ∉ steps := by
          rw [acceptsEvents_step]
        _ ↔ l.health.acceptsEvents = true ∧ .trigger ∉ s :: steps := by
          rw [List.mem_cons, not_or, and_assoc, ne_comm]

theorem drain_fst_eq_true_iff (steps : List Step) : (after steps).drain.1 = true ↔ Idle steps := by
  rw [drain_eq, List.isEmpty_iff]
  exact held_eq_nil_iff steps

theorem atLook_nil (steps : List Step) : atLook steps [] = steps :=
  List.append_nil steps

theorem atLook_cons (steps others : List Step) (turns : List (List Step)) :
    atLook steps (others :: turns) = atLook (steps ++ .look :: others) turns := by
  simp [atLook]

/-- What the first look of a wait comes to. -/
theorem drain_atLook (steps : List Step) :
    ((after steps).drain.1 = true ↔ Idle (atLook steps [])) ∧
      (after steps).drain.2 = after (atLook steps [] ++ [.look]) := by
  rw [atLook_nil, after_concat]
  exact ⟨drain_fst_eq_true_iff steps, rfl⟩

theorem wait_after (steps : List Step) (turns : List (List Step)) : ∃ k ≤ turns.length,
    (∀ j < k, ¬Idle (atLook steps (turns.take j))) ∧
    (((after steps).wait turns).1 = true ↔ Idle (atLook steps (turns.take k))) ∧
    (((after steps).wait turns).1 = false → k = turns.length) ∧
    ((after steps).wait turns).2 = after (atLook steps (turns.take k) ++ [.look]) := by
  induction turns generalizing steps with
  | nil =>
      obtain ⟨hfound, hleft⟩ := drain_atLook steps
      exact ⟨0, Nat.le_refl 0, fun j hj => absurd hj (Nat.not_lt_zero j), hfound, fun _ => rfl, hleft⟩
  | cons others turns ih =>
      by_cases hidle : Idle steps
      · -- the first look ends the wait
        have hnow := (drain_fst_eq_true_iff steps).mpr hidle
        obtain ⟨hfound, hleft⟩ := drain_atLook steps
        rw [wait, if_pos hnow]
        refine ⟨0, Nat.zero_le _, fun j hj => absurd hj (Nat.not_lt_zero j), hfound, ?_, hleft⟩
        intro hfalse
        rw [hnow] at hfalse
        cases hfalse
      · -- the others go on, and the rest is a wait that begins after them
        have hwait : (after steps).wait (others :: turns) =
            (after (steps ++ .look :: others)).wait turns := by
          rw [wait, if_neg (mt (drain_fst_eq_true_iff steps).mp hidle), after_append]
          rfl
        obtain ⟨k, hk, hbefore, hfound, hover, hleft⟩ := ih (steps ++ .look :: others)
        rw [hwait]
        refine ⟨k + 1, Nat.succ_le_succ hk, ?_, ?_, ?_, ?_⟩
        · intro j hj
          cases j with
          | zero => rwa [List.take_zero, atLook_nil]
          | succ j =>
              rw [List.take_succ_cons, atLook_cons]
              exact hbefore j (Nat.lt_of_succ_lt_succ hj)
        · rw [List.take_succ_cons, atLook_cons]
          exact hfound
        · intro hfalse
          rw [hover hfalse, List.length_cons]
        · rw [List.take_succ_cons, atLook_cons]
          exact hleft

/-- Whatever happens to a host, the history tells all that can be seen of it. -/
theorem history_tells (steps : List Step) : Told steps where
  signalled := (aged_after steps).signalled
  noticed := by
    rintro earlier later rfl
    constructor
    · rintro ⟨seen, hseen, hsignalled⟩
      have hmem := (aged_after (earlier ++ seen)).signalled.mp hsignalled
      exact ((List.prefix_append_right_inj earlier).mpr hseen).subset hmem
    · intro hmem
      exact ⟨later, List.prefix_rfl, (aged_after _).signalled.mpr hmem⟩
  stopped := (aged_after steps).stopped
  draining := by
    have h := aged_after steps
    rw [h.trigger_mem_iff, ← h.stopped]
    cases (after steps).health <;> simp
  ready := by
    have h := aged_after steps
    have hstarting := h.starting
    rw [← h.accepts] at hstarting ⊢
    cases hhealth : (after steps).health <;> simp_all [Health.acceptsEvents]
  starting := (aged_after steps).starting
  inFlight := inFlight_eq_ncard steps
  found := drain_fst_eq_true_iff steps
  left := by
    rw [after_concat, step, drain_eq, ← held_eq_nil_iff]
    by_cases hdrains : (after steps).held = [] ∧ (after steps).health = .draining
    · exact .inl ⟨hdrains.1, hdrains.2, by rw [if_pos hdrains]⟩
    · exact .inr ⟨hdrains, by rw [if_neg hdrains]⟩
  waited := wait_after steps
  forward := by
    rintro earlier ⟨later, rfl⟩
    rw [after_append]
    exact stage_le_run (after earlier) later
  refusing := by
    intro hmem
    rw [Bool.eq_false_iff]
    exact fun haccepts => (aged_after steps).accepts.mp haccepts hmem

end Lifecycle

end BuildHooks
