import Mathlib.Tactic.ByContra
import BuildHooks.Proofs.Event.Path

/-! Where a text is cut. What is cut at a mark is cut at its first occurrence, wherever that is told: by
the characters before it, or by the bytes. A cut by bytes is refused inside a character and past the end
of the text, so the parts of every cut that is made are texts, which make up the whole. -/

namespace BuildHooks.Text

/-- In the text `cs`, `before` is what stands before the first occurrence of `mark`. -/
structure FirstAt (mark before cs : List Char) : Prop where
  occurs : ∃ rest, cs = before ++ (mark ++ rest)
  first : ∀ other rest, cs = other ++ (mark ++ rest) → before <+: other

variable {mark before other cs rest : List Char}

theorem FirstAt.isInfix (h : FirstAt mark before cs) : mark <:+: cs := by
  obtain ⟨rest, hrest⟩ := h.occurs
  exact ⟨before, rest, by rw [hrest, List.append_assoc]⟩

theorem FirstAt.unique (h : FirstAt mark before cs) (h' : FirstAt mark other cs) : before = other := by
  obtain ⟨_, hrest⟩ := h.occurs
  obtain ⟨_, hrest'⟩ := h'.occurs
  have hle := h.first other _ hrest'
  exact hle.eq_of_length_le (h'.first before _ hrest).length_le

/-- Whatever follows the first occurrence of a mark, it stays the first. -/
theorem FirstAt.replace (h : FirstAt mark before cs) (rest : List Char) :
    FirstAt mark before (before ++ (mark ++ rest)) where
  occurs := ⟨rest, rfl⟩
  first := by
    intro other rest' hother
    have hbefore : before <+: before ++ (mark ++ rest) := List.prefix_append _ _
    have hstarts : other <+: before ++ (mark ++ rest) := hother ▸ List.prefix_append _ _
    rcases List.prefix_or_prefix_of_prefix hbefore hstarts with hle | ⟨gap, rfl⟩
    · exact hle
    · -- An occurrence that starts earlier ends before `rest`, so it is one in `cs` too.
      obtain ⟨old, hold⟩ := h.occurs
      rw [List.append_assoc, List.append_cancel_left_eq, ← List.append_assoc] at hother
      have hmark : mark <+: gap ++ mark := by
        apply List.prefix_of_prefix_length_le (hother ▸ List.prefix_append mark rest')
          (List.prefix_append _ rest)
        rw [List.length_append]
        omega
      obtain ⟨between, hbetween⟩ := hmark
      apply h.first other (between ++ old)
      calc
        cs = other ++ (gap ++ mark ++ old) := by rw [hold, List.append_assoc, List.append_assoc]
        _ = other ++ (mark ++ (between ++ old)) := by rw [← hbetween, List.append_assoc]

/-- A mark that does not stand at the start of a text is first where it is first in what follows. -/
theorem FirstAt.cons {c : Char} (hnot : ¬mark <+: c :: cs) (h : FirstAt mark before cs) :
    FirstAt mark (c :: before) (c :: cs) where
  occurs := by
    obtain ⟨rest, hrest⟩ := h.occurs
    exact ⟨rest, by rw [hrest, List.cons_append]⟩
  first := by
    intro other rest hother
    cases other with
    | nil => exact absurd ⟨rest, hother.symm⟩ hnot
    | cons d other =>
        obtain ⟨rfl, hrest⟩ := List.cons.inj hother
        exact List.cons_prefix_cons.mpr ⟨rfl, h.first other rest hrest⟩

theorem breakAtFrom?_eq (mark passed cs : List Char) :
    breakAtFrom? mark passed cs =
      (breakAt? mark cs).map fun parts => (passed.reverse ++ parts.1, parts.2) := by
  rw [breakAt?]
  induction cs generalizing passed with
  | nil => cases mark <;> simp [breakAtFrom?]
  | cons c cs ih =>
      rw [breakAtFrom?, breakAtFrom?]
      cases dropLead? mark (c :: cs) with
      | some rest => simp
      | none =>
          simp only
          rw [ih (c :: passed), ih [c], Option.map_map]
          congr 1
          funext parts
          simp

theorem breakAt?_cons_of_isPrefix {c : Char} (h : mark <+: c :: cs) :
    ∃ rest, breakAt? mark (c :: cs) = some ([], rest) := by
  obtain ⟨rest, hrest⟩ := h
  rw [breakAt?, breakAtFrom?, dropLead?_eq_some_iff.mpr hrest.symm]
  exact ⟨rest, rfl⟩

theorem breakAt?_cons_of_not_isPrefix {c : Char} (h : ¬mark <+: c :: cs) :
    breakAt? mark (c :: cs) = (breakAt? mark cs).map fun parts => (c :: parts.1, parts.2) := by
  have hnone : dropLead? mark (c :: cs) = none := by
    rw [Option.eq_none_iff_forall_ne_some]
    intro rest hrest
    exact h ⟨rest, (dropLead?_eq_some_iff.mp hrest).symm⟩
  rw [breakAt?, breakAtFrom?, hnone]
  exact breakAtFrom?_eq mark [c] cs

theorem firstAt_of_breakAt? (h : breakAt? mark cs = some (before, rest)) :
    FirstAt mark before cs := by
  induction cs generalizing before rest with
  | nil =>
      cases mark with
      | nil =>
          cases h
          exact ⟨⟨[], rfl⟩, fun _ _ _ => List.nil_prefix⟩
      | cons _ _ => cases h
  | cons c cs ih =>
      by_cases hstarts : mark <+: c :: cs
      · obtain ⟨rest', hrest⟩ := breakAt?_cons_of_isPrefix hstarts
        rw [hrest] at h
        cases h
        obtain ⟨tail, htail⟩ := hstarts
        exact ⟨⟨tail, htail.symm⟩, fun _ _ _ => List.nil_prefix⟩
      · rw [breakAt?_cons_of_not_isPrefix hstarts] at h
        obtain ⟨⟨before', rest'⟩, hbreak, hparts⟩ := Option.map_eq_some_iff.mp h
        cases hparts
        exact (ih hbreak).cons hstarts

theorem breakAt?_ne_none (h : mark <:+: cs) : breakAt? mark cs ≠ none := by
  induction cs with
  | nil =>
      rw [List.infix_nil.mp h]
      exact Option.some_ne_none _
  | cons c cs ih =>
      by_cases hstarts : mark <+: c :: cs
      · obtain ⟨rest, hrest⟩ := breakAt?_cons_of_isPrefix hstarts
        rw [hrest]
        exact Option.some_ne_none _
      · rw [breakAt?_cons_of_not_isPrefix hstarts, Ne, Option.map_eq_none_iff]
        exact ih ((List.infix_cons_iff.mp h).resolve_left hstarts)

/-- A text is broken at the first occurrence of the mark. -/
theorem map_fst_breakAt?_eq_some_iff :
    (breakAt? mark cs).map Prod.fst = some before ↔ FirstAt mark before cs := by
  constructor
  · intro h
    obtain ⟨⟨_, rest⟩, hbreak, rfl⟩ := Option.map_eq_some_iff.mp h
    exact firstAt_of_breakAt? hbreak
  · intro h
    cases hbreak : breakAt? mark cs with
    | none => exact absurd hbreak (breakAt?_ne_none h.isInfix)
    | some parts =>
        rw [Option.map_some, (firstAt_of_breakAt? hbreak).unique h]

theorem exists_firstAt (h : mark <:+: cs) : ∃ before, FirstAt mark before cs := by
  obtain ⟨parts, hparts⟩ := Option.ne_none_iff_exists'.mp (breakAt?_ne_none h)
  exact ⟨parts.1, firstAt_of_breakAt? hparts⟩

/-! ### Cuts by bytes -/

theorem pos?_eq_some_iff {s : String} {offset : String.Pos.Raw} {pos : s.Pos} :
    s.pos? offset = some pos ↔ pos.offset = offset := by
  rw [String.pos?, String.Slice.pos?]
  constructor
  · intro h
    split at h
    · cases h
      simp
    · cases h
  · rintro rfl
    have hvalid : pos.offset.isValidForSlice s.toSlice = true :=
      String.Pos.Raw.isValidForSlice_eq_true_iff.mpr pos.isValid.toSlice
    rw [dif_pos hvalid, Option.map_some]
    congr 1

/-- The two parts of a text that is cut after a number of bytes, unless the cut falls inside a character
or the text has fewer bytes. -/
def cut? (s : String) (offset : Nat) : Option (String × String) :=
  (s.pos? ⟨offset⟩).map fun pos => ((s.sliceTo pos).copy, (s.sliceFrom pos).copy)

theorem cut?_eq_some_iff {s head tail : String} {offset : Nat} :
    cut? s offset = some (head, tail) ↔ s = head ++ tail ∧ head.utf8ByteSize = offset := by
  constructor
  · intro h
    obtain ⟨pos, hpos, hparts⟩ := Option.map_eq_some_iff.mp h
    cases hparts
    refine ⟨pos.splits.eq_append, ?_⟩
    rw [← String.byteIdx_rawEndPos, ← pos.splits.offset_eq_rawEndPos, pos?_eq_some_iff.mp hpos]
  · rintro ⟨h, rfl⟩
    have hsplits := String.Pos.splits_ofEqAppend h
    have hpos : s.pos? head.rawEndPos = some (String.Pos.ofEqAppend h) :=
      pos?_eq_some_iff.mpr hsplits.offset_eq_rawEndPos
    apply Option.map_eq_some_iff.mpr
    refine ⟨_, hpos, ?_⟩
    rw [hsplits.copy_sliceTo_eq, hsplits.copy_sliceFrom_eq]

/-- The first place where a text goes on with `mark`, as the number of bytes before it. -/
def find? (mark s : String) : Option Nat :=
  (List.range (s.utf8ByteSize + 1)).find? fun offset =>
    (cut? s offset).any fun parts => mark.toList.isPrefixOf parts.2.toList

theorem utf8ByteSize_le_of_isPrefix {s t : String} (h : s.toList <+: t.toList) :
    s.utf8ByteSize ≤ t.utf8ByteSize := by
  obtain ⟨rest, hrest⟩ := h
  have ht : t = s ++ String.ofList rest := by
    rw [← String.toList_inj, String.toList_append, String.toList_ofList, hrest]
  rw [ht, String.utf8ByteSize_append]
  exact Nat.le_add_right _ _

/-- Of two beginnings of a text the one with fewer bytes is a beginning of the other. -/
theorem prefix_of_utf8ByteSize_le {s t : String} (hs : s.toList <+: cs) (ht : t.toList <+: cs)
    (h : s.utf8ByteSize ≤ t.utf8ByteSize) : s.toList <+: t.toList := by
  rcases List.prefix_or_prefix_of_prefix hs ht with hle | ⟨rest, hrest⟩
  · exact hle
  · have heq : s = t ++ String.ofList rest := by
      rw [← String.toList_inj, String.toList_append, String.toList_ofList, hrest]
    have hempty : String.ofList rest = "" := by
      rw [← String.utf8ByteSize_eq_zero_iff]
      rw [heq, String.utf8ByteSize_append] at h
      omega
    have hsame : s = t := by rw [heq, hempty, String.append_empty]
    exact hsame ▸ List.prefix_refl _

theorem any_cut?_iff {mark s : String} {offset : Nat} :
    ((cut? s offset).any fun parts => mark.toList.isPrefixOf parts.2.toList) = true ↔
      ∃ (before : String) (rest : List Char),
        s.toList = before.toList ++ (mark.toList ++ rest) ∧ before.utf8ByteSize = offset := by
  rw [Option.any_eq_true]
  constructor
  · rintro ⟨⟨before, tail⟩, hcut, hmark⟩
    obtain ⟨hs, hsize⟩ := cut?_eq_some_iff.mp hcut
    obtain ⟨rest, hrest⟩ := List.isPrefixOf_iff_prefix.mp hmark
    exact ⟨before, rest, by rw [hs, String.toList_append, hrest], hsize⟩
  · rintro ⟨before, rest, hs, hsize⟩
    refine ⟨(before, mark ++ String.ofList rest), cut?_eq_some_iff.mpr ⟨?_, hsize⟩, ?_⟩
    · rw [← String.toList_inj, String.toList_append, String.toList_append, String.toList_ofList, hs]
    · apply List.isPrefixOf_iff_prefix.mpr
      exact ⟨rest, by rw [String.toList_append, String.toList_ofList]⟩

/-- The place that is found is that of the first occurrence. -/
theorem find?_eq_some_iff {mark s : String} {offset : Nat} :
    find? mark s = some offset ↔
      ∃ before : String, FirstAt mark.toList before.toList s.toList ∧ before.utf8ByteSize = offset := by
  rw [find?, List.find?_range_eq_some, any_cut?_iff]
  constructor
  · rintro ⟨⟨before, rest, hs, hsize⟩, _, hearlier⟩
    refine ⟨before, ⟨⟨rest, hs⟩, fun other rest' hother => ?_⟩, hsize⟩
    have hstarts : other <+: s.toList := hother ▸ List.prefix_append _ _
    rw [← String.toList_ofList (l := other)] at hstarts hother ⊢
    apply prefix_of_utf8ByteSize_le (hs ▸ List.prefix_append _ _) hstarts
    by_contra hlt
    rw [hsize, Nat.not_le] at hlt
    have hnone := hearlier _ hlt
    rw [Bool.not_eq_true', any_cut?_iff.mpr ⟨_, rest', hother, rfl⟩] at hnone
    cases hnone
  · rintro ⟨before, hfirst, rfl⟩
    obtain ⟨rest, hs⟩ := hfirst.occurs
    refine ⟨⟨before, rest, hs, rfl⟩, ?_, fun earlier hlt => ?_⟩
    · have hle : before.utf8ByteSize ≤ s.utf8ByteSize :=
        utf8ByteSize_le_of_isPrefix (hs ▸ List.prefix_append _ _)
      rw [List.mem_range]
      omega
    · rw [Bool.not_eq_true', Bool.eq_false_iff, Ne, any_cut?_iff]
      rintro ⟨other, rest', hother, rfl⟩
      have hle := utf8ByteSize_le_of_isPrefix (hfirst.first _ _ hother)
      omega

theorem find?_eq_none_iff {mark s : String} :
    find? mark s = none ↔ ¬mark.toList <:+: s.toList := by
  rw [Option.eq_none_iff_forall_ne_some]
  constructor
  · intro hnone hinfix
    obtain ⟨before, hfirst⟩ := exists_firstAt hinfix
    rw [← String.toList_ofList (l := before)] at hfirst
    exact hnone _ (find?_eq_some_iff.mpr ⟨_, hfirst, rfl⟩)
  · intro hnot offset hfind
    obtain ⟨before, hfirst, _⟩ := find?_eq_some_iff.mp hfind
    exact hnot hfirst.isInfix

end BuildHooks.Text
