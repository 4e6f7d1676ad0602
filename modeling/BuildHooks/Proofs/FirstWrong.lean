/-! The first of several entries in which something is wrong. Checks that stop at the first entry that fails
report it, and what is wrong in an entry may hang on those before it. -/

namespace BuildHooks

variable {α ε : Type}

/-- In the entries, `fault` is wrong in one of them and nothing is wrong in those before it. -/
def FirstWrong (Wrong : List α → α → ε → Prop) (entries : List α) (fault : ε) : Prop :=
  ∃ before entry after, entries = before ++ entry :: after ∧ Wrong before entry fault ∧
    ∀ earlier other later, before = earlier ++ other :: later → ∀ e, ¬Wrong earlier other e

variable {Wrong : List α → α → ε → Prop} {entry : α} {entries : List α} {fault : ε}

theorem not_firstWrong_nil : ¬FirstWrong Wrong [] fault := by
  rintro ⟨before, entry, after, h, _⟩
  exact List.append_ne_nil_of_right_ne_nil before (List.cons_ne_nil entry after) h.symm

theorem firstWrong_cons_iff : FirstWrong Wrong (entry :: entries) fault ↔
    Wrong [] entry fault ∨
      (∀ e, ¬Wrong [] entry e) ∧ FirstWrong (fun before => Wrong (entry :: before)) entries fault := by
  constructor
  · rintro ⟨before, first, after, h, hwrong, hright⟩
    cases before with
    | nil =>
        cases h
        exact .inl hwrong
    | cons head before =>
        obtain ⟨rfl, rfl⟩ := List.cons.inj h
        refine .inr ⟨hright [] entry before rfl, before, first, after, rfl, hwrong, ?_⟩
        intro earlier other later hbefore
        exact hright (entry :: earlier) other later (by rw [hbefore, List.cons_append])
  · rintro (hwrong | ⟨hright, before, first, after, rfl, hwrong, hearlier⟩)
    · refine ⟨[], entry, entries, rfl, hwrong, fun earlier other later h => ?_⟩
      exact absurd h.symm (List.append_ne_nil_of_right_ne_nil earlier (List.cons_ne_nil other later))
    · refine ⟨entry :: before, first, after, rfl, hwrong, fun earlier other later h => ?_⟩
      cases earlier with
      | nil =>
          cases h
          exact hright
      | cons head earlier =>
          obtain ⟨rfl, hbefore⟩ := List.cons.inj h
          exact hearlier earlier other later hbefore

/-- Where something is wrong in the first entry, the others do not matter. -/
theorem firstWrong_iff_of_wrong {e : ε} (h : Wrong [] entry e) :
    FirstWrong Wrong (entry :: entries) fault ↔ Wrong [] entry fault := by
  rw [firstWrong_cons_iff, or_iff_left]
  exact fun hrest => hrest.1 e h

theorem firstWrong_iff_of_right (h : ∀ e, ¬Wrong [] entry e) : FirstWrong Wrong (entry :: entries) fault ↔
    FirstWrong (fun before => Wrong (entry :: before)) entries fault := by
  rw [firstWrong_cons_iff, or_iff_right (h fault), and_iff_right h]

end BuildHooks
