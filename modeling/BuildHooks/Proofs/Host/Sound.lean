import Mathlib.Data.List.Nodup
import BuildHooks.Host.Step
import BuildHooks.Proofs.Host.Driving

/-! The invariant of a server. The guards that are held are those of the pending requests, one each, and
what is left of the dispatch of each of these comes to the response of the whole dispatch. Requests are
accepted until shutdown is asked for, and nothing is pending once the host has stopped. Everything that
a server does is made of a few changes, and each keeps the invariant. -/

namespace BuildHooks.Host

/-- A pending request as it is seen from outside. -/
def Pending.opened (p : Pending) : Open :=
  ⟨p.id, p.request, p.fresh⟩

namespace Server

/-- The pending requests as they are seen from outside. -/
def opens (s : Server) : List Open :=
  s.waiting.map Pending.opened

/-- What is left of the dispatch of a pending request comes to the response of the whole dispatch. -/
def Owes (s : Server) (p : Pending) : Prop :=
  ((s.restOf p).run s.site.scheduler.answer).1 = (s.outcomeFor p.request).1

structure Sound (s : Server) : Prop where
  guards : ∀ p ∈ s.waiting, p.guardNumber = p.id
  owes : ∀ p ∈ s.waiting, s.Owes p
  issued : ∀ p ∈ s.waiting, p.id < s.life.issued
  nodup : (s.waiting.map Pending.id).Nodup
  held : s.life.held.Perm (s.waiting.map Pending.id)
  signalled : s.life.signalled = !s.life.health.acceptsEvents
  stopped : s.life.health = .stopped → s.waiting = []

theorem map_id_opens (s : Server) : s.opens.map Open.id = s.waiting.map Pending.id := by
  unfold opens
  rw [List.map_map]
  rfl

theorem sound_ofSite (site : Site) : (ofSite site).Sound where
  guards := by simp [ofSite]
  owes := by simp [ofSite]
  issued := by simp [ofSite]
  nodup := List.nodup_nil
  held := List.Perm.refl _
  signalled := rfl
  stopped := fun _ => rfl

variable {s : Server}

theorem Sound.inFlight_eq (h : s.Sound) : s.life.inFlight = s.opens.length := by
  unfold Lifecycle.inFlight opens
  rw [h.held.length_eq, List.length_map, List.length_map]

theorem Sound.issued_notMem_held (h : s.Sound) : s.life.issued ∉ s.life.held := by
  intro hmem
  obtain ⟨p, hp, hid⟩ := List.mem_map.mp (h.held.mem_iff.mp hmem)
  have := h.issued p hp
  omega

theorem mem_of_pending? {id before : Nat} {p : Pending} (h : s.pending? id = some (before, p)) :
    p ∈ s.waiting ∧ p.id = id := by
  unfold pending? at h
  split at h
  · next i hi =>
    obtain ⟨q, hq, hpair⟩ := Option.map_eq_some_iff.mp h
    cases hpair
    obtain ⟨hlt, hid, _⟩ := List.findIdx?_eq_some_iff_getElem.mp hi
    rw [List.getElem?_eq_getElem hlt] at hq
    cases hq
    exact ⟨List.getElem_mem hlt, by simpa using hid⟩
  · cases h

theorem exists_pending? {id : Nat} (h : id ∈ s.waiting.map Pending.id) :
    ∃ before p, s.pending? id = some (before, p) := by
  obtain ⟨p, hp, hid⟩ := List.mem_map.mp h
  unfold pending?
  split
  · next i hi =>
    obtain ⟨hlt, _⟩ := List.findIdx?_eq_some_iff_getElem.mp hi
    exact ⟨i, s.waiting[i], by rw [List.getElem?_eq_getElem hlt]; rfl⟩
  · next hnone =>
    have := List.findIdx?_eq_none_iff.mp hnone p hp
    simp [hid] at this

/-- The last in the queue is found behind all others. -/
theorem pending?_of_waiting_eq {ps : List Pending} {p : Pending} (hwaiting : s.waiting = ps ++ [p])
    (hid : p.id ∉ ps.map Pending.id) : s.pending? p.id = some (ps.length, p) := by
  have hnone : ps.findIdx? (fun q => q.id == p.id) = none := by
    rw [List.findIdx?_eq_none_iff]
    intro q hq
    rw [beq_eq_false_iff_ne]
    exact fun heq => hid (heq ▸ List.mem_map_of_mem hq)
  unfold pending?
  rw [hwaiting, List.findIdx?_append, hnone]
  simp

/-- In a sound server a number leads to the one request that has it. -/
theorem Sound.pending?_of_mem (h : s.Sound) {p : Pending} (hp : p ∈ s.waiting) :
    ∃ before, s.pending? p.id = some (before, p) := by
  obtain ⟨before, q, hq⟩ := exists_pending? (List.mem_map_of_mem hp)
  obtain ⟨hmem, hid⟩ := mem_of_pending? hq
  rw [List.inj_on_of_nodup_map h.nodup hmem hp hid] at hq
  exact ⟨before, hq⟩

/-! ### The changes a server is made of -/

theorem Sound.permits (h : s.Sound) (permits : Nat) : Sound { s with permits } where
  guards := h.guards
  owes := h.owes
  issued := h.issued
  nodup := h.nodup
  held := h.held
  signalled := h.signalled
  stopped := h.stopped

/-- A guard that is given out and taken back leaves no trace but its number. -/
theorem Sound.release_acquire (h : s.Sound) :
    (s.life.acquire.2.release s.life.issued).2 = { s.life with issued := s.life.issued + 1 } := by
  unfold Lifecycle.acquire Lifecycle.release
  simp only
  rw [List.erase_append_right _ h.issued_notMem_held, List.erase_cons_head, List.append_nil]

theorem Sound.served (h : s.Sound) (permits : Nat) :
    Sound { s with permits, life := (s.life.acquire.2.release s.life.issued).2 } := by
  rw [h.release_acquire]
  exact
    { guards := h.guards
      owes := h.owes
      issued := fun p hp => Nat.lt_succ_of_lt (h.issued p hp)
      nodup := h.nodup
      held := h.held
      signalled := h.signalled
      stopped := h.stopped }

/-- What holds of the pending requests and of one more holds of the queue with that one at its end. -/
theorem forall_mem_concat {holds : Pending → Prop} {ps : List Pending} {p : Pending}
    (hold : ∀ q ∈ ps, holds q) (hnew : holds p) : ∀ q ∈ ps ++ [p], holds q :=
  List.forall_mem_append.mpr ⟨hold, List.forall_mem_singleton.mpr hnew⟩

/-- A request that is accepted and kept waiting gets the number of its guard. -/
theorem Sound.kept (h : s.Sound) (permits : Nat) {p : Pending} (hid : p.id = s.life.issued)
    (hguard : p.guardNumber = s.life.issued) (howes : s.Owes p)
    (haccepts : s.life.health.acceptsEvents = true) :
    Sound { s with permits, life := s.life.acquire.2, waiting := s.waiting ++ [p] } where
  guards := forall_mem_concat h.guards (hguard.trans hid.symm)
  owes := forall_mem_concat h.owes howes
  issued := by
    refine forall_mem_concat (fun q hq => Nat.lt_succ_of_lt (h.issued q hq)) ?_
    rw [hid]
    exact Nat.lt_succ_self _
  nodup := by
    rw [List.map_append]
    refine h.nodup.append (List.nodup_singleton _) ?_
    intro id hold hnew
    obtain ⟨q, hq, rfl⟩ := List.mem_map.mp hold
    have hlt := h.issued q hq
    rw [List.map_singleton, List.mem_singleton] at hnew
    omega
  held := by
    rw [List.map_append, List.map_singleton, hid]
    exact h.held.append_right _
  signalled := h.signalled
  stopped := by
    intro hstopped
    change s.life.health = .stopped at hstopped
    rw [hstopped] at haccepts
    cases haccepts

/-- What holds of the pending requests holds of those that one of them leaves behind. -/
theorem forall_mem_filter_id {holds : Pending → Prop} (h : ∀ q ∈ s.waiting, holds q) (id : Nat) :
    ∀ q ∈ s.waiting.filter (fun r => r.id != id), holds q :=
  fun q hq => h q (List.mem_of_mem_filter hq)

theorem map_filter_id (ps : List Pending) (id : Nat) :
    (ps.filter fun r => r.id != id).map Pending.id = (ps.map Pending.id).filter (· != id) := by
  rw [List.filter_map]
  rfl

/-- A pending request that leaves takes its guard along. -/
theorem Sound.giveUp (h : s.Sound) {p : Pending} (hp : p ∈ s.waiting) : (s.giveUp p).Sound where
  guards := forall_mem_filter_id h.guards p.id
  owes := forall_mem_filter_id h.owes p.id
  issued := forall_mem_filter_id h.issued p.id
  nodup := by
    change ((s.waiting.filter fun r => r.id != p.id).map Pending.id).Nodup
    rw [map_filter_id]
    exact h.nodup.filter _
  held := by
    change (s.life.held.erase p.guardNumber).Perm
      ((s.waiting.filter fun r => r.id != p.id).map Pending.id)
    rw [map_filter_id, h.guards p hp, ← h.nodup.erase_eq_filter]
    exact h.held.erase _
  signalled := h.signalled
  stopped := by
    intro hstopped
    change (s.waiting.filter fun r => r.id != p.id) = []
    rw [h.stopped hstopped]
    rfl

/-- A pending request that asks again goes to the end of the queue. -/
theorem Sound.requeued (h : s.Sound) (permits : Nat) {p q : Pending} (hp : p ∈ s.waiting)
    (hid : q.id = p.id) (hguard : q.guardNumber = p.guardNumber) (howes : s.Owes q) :
    Sound { s with permits, waiting := (s.waiting.filter fun r => r.id != p.id) ++ [q] } where
  guards := by
    refine forall_mem_concat (forall_mem_filter_id h.guards p.id) ?_
    rw [hguard, hid]
    exact h.guards p hp
  owes := forall_mem_concat (forall_mem_filter_id h.owes p.id) howes
  issued := by
    refine forall_mem_concat (forall_mem_filter_id h.issued p.id) ?_
    rw [hid]
    exact h.issued p hp
  nodup := by
    rw [List.map_append, map_filter_id, List.map_singleton, hid]
    refine (h.nodup.filter _).append (List.nodup_singleton _) ?_
    intro id hold hnew
    rw [List.mem_singleton.mp hnew] at hold
    simp at hold
  held := by
    rw [List.map_append, map_filter_id, List.map_singleton, hid, ← h.nodup.erase_eq_filter]
    refine h.held.trans ?_
    exact (List.perm_cons_erase (List.mem_map_of_mem hp)).trans (List.perm_append_singleton _ _).symm
  signalled := h.signalled
  stopped := by
    intro hstopped
    change s.life.health = .stopped at hstopped
    rw [h.stopped hstopped] at hp
    cases hp

theorem Sound.setReady (h : s.Sound) : (s.withLife Lifecycle.setReady).Sound := by
  unfold withLife Lifecycle.setReady
  split
  · next hstarting =>
    have hsignalled := h.signalled
    rw [hstarting] at hsignalled
    exact
      { guards := h.guards
        owes := h.owes
        issued := h.issued
        nodup := h.nodup
        held := h.held
        signalled := hsignalled
        stopped := by
          intro hstopped
          cases hstopped }
  · exact h

theorem Sound.trigger (h : s.Sound) : (s.withLife Lifecycle.trigger).Sound where
  guards := h.guards
  owes := h.owes
  issued := h.issued
  nodup := h.nodup
  held := h.held
  signalled := by
    unfold withLife Lifecycle.trigger
    cases hhealth : s.life.health <;> rfl
  stopped := by
    unfold withLife Lifecycle.trigger
    simp only
    split
    · intro hstopped
      cases hstopped
    · exact h.stopped

theorem Sound.drain (h : s.Sound) : (s.withLife fun l => l.drain.2).Sound := by
  unfold withLife Lifecycle.drain
  simp only
  split
  · next hempty =>
    split
    · next hdraining =>
      have hsignalled := h.signalled
      rw [hdraining] at hsignalled
      have hwaiting : s.waiting = [] := by
        have hheld := h.held
        rw [List.isEmpty_iff.mp hempty] at hheld
        exact List.map_eq_nil_iff.mp hheld.nil_eq.symm
      exact
        { guards := h.guards
          owes := h.owes
          issued := h.issued
          nodup := h.nodup
          held := h.held
          signalled := hsignalled
          stopped := fun _ => hwaiting }
    · exact h
  · exact h

end Server

end BuildHooks.Host
