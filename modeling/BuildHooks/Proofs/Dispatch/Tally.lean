import Mathlib.Data.List.Induction
import Mathlib.Data.List.Nodup
import BuildHooks.Dispatch.Measured

/-! What a tally shows of the measurements it was made of. Each metric is there once, with the number of
its measurements, and the numbers of some metrics together are the number of measurements of any of
them. -/

namespace BuildHooks

namespace Metric

/-- The event that a metric is about. -/
def event : Metric → String
  | .dispatched event _ => event
  | .duration event => event

/-- The metric counts requests, and does not time them. -/
def isDispatched : Metric → Bool
  | .dispatched _ _ => true
  | .duration _ => false

end Metric

namespace Tally

/-- How often any of some metrics was measured. -/
def total (p : Metric → Bool) : Tally → Nat
  | [] => 0
  | e :: t => (if p e.1 then e.2 else 0) + total p t

/-- One more measurement of a metric that is there. -/
def bump (m : Metric) (t : Tally) : Tally :=
  t.map fun e => if e.1 = m then (m, e.2 + 1) else e

variable (t : Tally) (m : Metric)

theorem add_of_mem {t : Tally} {m : Metric} (h : m ∈ t.map Prod.fst) : t.add m = t.bump m := by
  obtain ⟨e, he, rfl⟩ := List.mem_map.mp h
  unfold add
  rw [if_pos (List.any_eq_true.mpr ⟨e, he, by simp⟩)]
  rfl

theorem add_of_notMem {t : Tally} {m : Metric} (h : m ∉ t.map Prod.fst) : t.add m = t ++ [(m, 1)] := by
  unfold add
  rw [if_neg]
  rw [Bool.not_eq_true, List.any_eq_false]
  intro e he heq
  exact h (List.mem_map.mpr ⟨e, he, by simpa using heq⟩)

theorem map_fst_bump : (bump m t).map Prod.fst = t.map Prod.fst := by
  unfold bump
  rw [List.map_map]
  refine List.map_congr_left fun e _ => ?_
  by_cases h : e.1 = m
  · simp [h]
  · simp [h]

theorem bump_of_notMem {t : Tally} {m : Metric} (h : m ∉ t.map Prod.fst) : bump m t = t := by
  unfold bump
  refine (List.map_congr_left fun e he => ?_).trans (List.map_id t)
  rw [if_neg fun heq => h (List.mem_map.mpr ⟨e, he, heq⟩)]
  rfl

theorem total_bump {t : Tally} {m : Metric} (hnodup : (t.map Prod.fst).Nodup)
    (h : m ∈ t.map Prod.fst) (p : Metric → Bool) :
    total p (bump m t) = total p t + if p m then 1 else 0 := by
  induction t with
  | nil => cases h
  | cons e t ih =>
      rw [List.map_cons, List.nodup_cons] at hnodup
      have hcons : bump m (e :: t) = (if e.1 = m then (m, e.2 + 1) else e) :: bump m t := rfl
      rw [hcons, total, total]
      by_cases he : e.1 = m
      · subst he
        rw [if_pos rfl, bump_of_notMem hnodup.1]
        cases p e.1 with
        | true => simp only [if_true]; omega
        | false => simp
      · rw [if_neg he, ih hnodup.2 (by simpa [Ne.symm he] using h), Nat.add_assoc]

theorem total_concat (e : Metric × Nat) (p : Metric → Bool) :
    total p (t ++ [e]) = total p t + if p e.1 then e.2 else 0 := by
  induction t with
  | nil => exact Nat.add_comm _ _
  | cons f t ih => rw [List.cons_append, total, total, ih, Nat.add_assoc]

theorem total_eq_zero {t : Tally} {p : Metric → Bool} (h : ∀ e ∈ t, p e.1 = false) :
    total p t = 0 := by
  induction t with
  | nil => rfl
  | cons e t ih =>
      rw [total, h e List.mem_cons_self, ih fun f hf => h f (List.mem_cons_of_mem _ hf)]
      rfl

theorem nodup_add {t : Tally} (h : (t.map Prod.fst).Nodup) (m : Metric) :
    ((t.add m).map Prod.fst).Nodup := by
  by_cases hmem : m ∈ t.map Prod.fst
  · rw [add_of_mem hmem, map_fst_bump]
    exact h
  · rw [add_of_notMem hmem, List.map_append]
    exact h.append (List.nodup_singleton _) (List.disjoint_singleton.mpr hmem)

theorem total_add {t : Tally} (h : (t.map Prod.fst).Nodup) (m : Metric) (p : Metric → Bool) :
    total p (t.add m) = total p t + if p m then 1 else 0 := by
  by_cases hmem : m ∈ t.map Prod.fst
  · rw [add_of_mem hmem, total_bump h hmem]
  · rw [add_of_notMem hmem, total_concat]

theorem mem_add {k : Metric} : k ∈ (t.add m).map Prod.fst ↔ k ∈ t.map Prod.fst ∨ k = m := by
  by_cases hmem : m ∈ t.map Prod.fst
  · rw [add_of_mem hmem, map_fst_bump]
    exact ⟨.inl, fun h => h.elim id fun heq => heq ▸ hmem⟩
  · rw [add_of_notMem hmem, List.map_append, List.mem_append, List.map_singleton,
      List.mem_singleton]

theorem ofList_concat (metrics : List Metric) :
    ofList (metrics ++ [m]) = (ofList metrics).add m := by
  unfold ofList
  rw [List.foldl_append]
  rfl

theorem nodup_ofList (metrics : List Metric) : ((ofList metrics).map Prod.fst).Nodup := by
  induction metrics using List.reverseRecOn with
  | nil => exact List.nodup_nil
  | append_singleton metrics m ih =>
      rw [ofList_concat]
      exact nodup_add ih m

theorem mem_ofList_iff {metrics : List Metric} {k : Metric} :
    k ∈ (ofList metrics).map Prod.fst ↔ k ∈ metrics := by
  induction metrics using List.reverseRecOn with
  | nil => rfl
  | append_singleton metrics m ih =>
      rw [ofList_concat, mem_add, ih, List.mem_append, List.mem_singleton]

/-- The numbers of some metrics together are the number of their measurements. -/
theorem total_ofList (metrics : List Metric) (p : Metric → Bool) :
    total p (ofList metrics) = metrics.countP p := by
  induction metrics using List.reverseRecOn with
  | nil => rfl
  | append_singleton metrics m ih =>
      rw [ofList_concat, total_add (nodup_ofList metrics), ih, List.countP_append,
        List.countP_singleton]

/-- The number of one metric is what it comes to in total. -/
theorem count_eq_total {t : Tally} (h : (t.map Prod.fst).Nodup) (m : Metric) :
    t.count m = total (fun k => k = m) t := by
  induction t with
  | nil => rfl
  | cons e t ih =>
      rw [List.map_cons, List.nodup_cons] at h
      rw [total]
      unfold count
      by_cases he : e.1 = m
      · have hrest : total (fun k => k = m) t = 0 := by
          refine total_eq_zero fun f hf => decide_eq_false fun heq => ?_
          exact h.1 (List.mem_map.mpr ⟨f, hf, heq.trans he.symm⟩)
        rw [List.find?_cons_of_pos (by simpa using he), hrest]
        simp [he]
      · rw [List.find?_cons_of_neg (by simpa using he), if_neg (by simpa using he), Nat.zero_add]
        exact ih h.2

theorem count_ofList (metrics : List Metric) (m : Metric) :
    (ofList metrics).count m = metrics.countP fun k => k = m := by
  rw [count_eq_total (nodup_ofList metrics), total_ofList]

end Tally

end BuildHooks
