import BuildHooks.Text.Cut

/-! A text is split like a list in the library, so what was put together with separators is taken apart
again. The parts have no separator in them, and put together they are the text. -/

namespace BuildHooks.Text

theorem splitFrom_eq (sep : Char) (done : List (List Char)) (part cs : List Char) :
    splitFrom sep done part cs = done.reverse ++ List.splitOnPPrepend (· == sep) cs part := by
  induction cs generalizing done part with
  | nil => rw [splitFrom, List.reverse_cons, List.splitOnPPrepend_nil]
  | cons c cs ih =>
      rw [splitFrom, List.splitOnPPrepend_cons_eq_if]
      by_cases h : c = sep
      · rw [if_pos h, if_pos (beq_iff_eq.mpr h), ih, List.reverse_cons, List.append_assoc,
          List.splitOnPPrepend_nil_right]
        rfl
      · rw [if_neg h, if_neg (fun heq => h (beq_iff_eq.mp heq)), ih]

theorem split_eq_splitOn (sep : Char) (cs : List Char) : split sep cs = cs.splitOn sep := by
  rw [split, splitFrom_eq]
  rfl

theorem split_intercalate {sep : Char} {parts : List (List Char)} (hparts : ∀ part ∈ parts, sep ∉ part)
    (h : parts ≠ []) : split sep ([sep].intercalate parts) = parts := by
  rw [split_eq_splitOn, List.splitOn_intercalate sep hparts h]

theorem intercalate_split (sep : Char) (cs : List Char) : [sep].intercalate (split sep cs) = cs := by
  rw [split_eq_splitOn, List.intercalate_splitOn]

theorem split_ne_nil (sep : Char) (cs : List Char) : split sep cs ≠ [] := by
  rw [split_eq_splitOn]
  exact List.splitOn_ne_nil sep cs

theorem split_append (sep : Char) (as bs : List Char) :
    split sep (as ++ sep :: bs) = split sep as ++ split sep bs := by
  rw [split_eq_splitOn, split_eq_splitOn, split_eq_splitOn, List.splitOn_append_cons_self]

theorem notMem_of_mem_splitFrom {sep : Char} {done : List (List Char)} {part cs : List Char}
    (hdone : ∀ p ∈ done, sep ∉ p) (hpart : sep ∉ part) : ∀ p ∈ splitFrom sep done part cs, sep ∉ p := by
  have hfinished : ∀ p ∈ part.reverse :: done, sep ∉ p := by
    rw [List.forall_mem_cons, List.mem_reverse]
    exact ⟨hpart, hdone⟩
  induction cs generalizing done part with
  | nil =>
      intro p hp
      exact hfinished p (List.mem_reverse.mp hp)
  | cons c cs ih =>
      rw [splitFrom]
      by_cases hc : c = sep
      · rw [if_pos hc]
        apply ih hfinished List.not_mem_nil
        exact List.forall_mem_cons.mpr ⟨List.not_mem_nil, hfinished⟩
      · rw [if_neg hc]
        have hlonger : sep ∉ c :: part := List.not_mem_cons_of_ne_of_not_mem (Ne.symm hc) hpart
        apply ih hdone hlonger
        exact List.forall_mem_cons.mpr ⟨fun h => hlonger (List.mem_reverse.mp h), hdone⟩

theorem notMem_of_mem_split {sep : Char} {cs part : List Char} (h : part ∈ split sep cs) : sep ∉ part :=
  notMem_of_mem_splitFrom (fun _ hp => absurd hp List.not_mem_nil) List.not_mem_nil part h

end BuildHooks.Text
