import BuildHooks.Event.Path

/-! A path names an event when the root is followed by a segment without a slash, and either nothing or
a slash and anything follows the segment. The name is that segment, and there is one at most. -/

namespace BuildHooks

namespace Text

theorem dropLead?_eq_some_iff {lead cs rest : List Char} :
    dropLead? lead cs = some rest ↔ cs = lead ++ rest := by
  induction lead generalizing cs with
  | nil =>
      rw [dropLead?, Option.some_inj, List.nil_append]
  | cons l lead ih =>
      cases cs with
      | nil => simp [dropLead?]
      | cons c cs =>
          rw [dropLead?, List.cons_append, List.cons_eq_cons]
          split
          · next h =>
            rw [ih]
            exact ⟨fun hrest => ⟨h.symm, hrest⟩, fun hrest => hrest.2⟩
          · next h =>
            constructor
            · intro hnone
              cases hnone
            · intro hrest
              exact absurd hrest.1.symm h

end Text

namespace Event

/-- The path leads to what is called `segment` under the root. -/
def Names (root path segment : String) : Prop :=
  '/' ∉ segment.toList ∧
    (path = "/" ++ root ++ "/" ++ segment ∨
      ∃ tail, path = "/" ++ root ++ "/" ++ segment ++ "/" ++ tail)

/-- The first segment is what stands before the first slash, if there is one. -/
theorem firstSegment_eq_iff {cs segment : List Char} :
    firstSegment cs = segment ↔
      '/' ∉ segment ∧ (cs = segment ∨ ∃ tail, cs = segment ++ '/' :: tail) := by
  induction cs generalizing segment with
  | nil =>
      constructor
      · rintro rfl
        exact ⟨List.not_mem_nil, .inl rfl⟩
      · rintro ⟨_, rfl | ⟨tail, htail⟩⟩
        · rfl
        · exact absurd htail.symm (List.append_ne_nil_of_right_ne_nil _ (List.cons_ne_nil _ _))
  | cons c cs ih =>
      by_cases hc : c = '/'
      · subst hc
        have hfirst : firstSegment ('/' :: cs) = [] := rfl
        rw [hfirst]
        constructor
        · rintro rfl
          exact ⟨List.not_mem_nil, .inr ⟨cs, rfl⟩⟩
        · rintro ⟨hslash, rfl | ⟨tail, htail⟩⟩
          · exact absurd List.mem_cons_self hslash
          · cases segment with
            | nil => rfl
            | cons d segment =>
                cases htail
                exact absurd List.mem_cons_self hslash
      · have hfirst : firstSegment (c :: cs) = c :: firstSegment cs := by
          unfold firstSegment
          rw [List.takeWhile_cons_of_pos (by simpa using hc)]
        rw [hfirst]
        cases segment with
        | nil =>
            constructor
            · intro h
              cases h
            · rintro ⟨_, h | ⟨tail, htail⟩⟩
              · cases h
              · cases htail
                exact absurd rfl hc
        | cons d segment =>
            rw [List.cons_eq_cons, ih]
            constructor
            · rintro ⟨rfl, hslash, hcs⟩
              refine ⟨fun hmem => ?_, ?_⟩
              · rcases List.mem_cons.mp hmem with h | h
                · exact hc h.symm
                · exact hslash h
              · rcases hcs with rfl | ⟨tail, rfl⟩
                · exact .inl rfl
                · exact .inr ⟨tail, rfl⟩
            · rintro ⟨hslash, hcs | ⟨tail, htail⟩⟩
              · cases hcs
                exact ⟨rfl, fun hmem => hslash (List.mem_cons_of_mem _ hmem), .inl rfl⟩
              · cases htail
                exact ⟨rfl, fun hmem => hslash (List.mem_cons_of_mem _ hmem), .inr ⟨tail, rfl⟩⟩

theorem nameInPath?_eq_some_iff {root path segment : String} :
    nameInPath? (pathLead root) path = some segment ↔ Names root path segment := by
  have hwhole : ∀ rest : List Char, path.toList = (pathLead root).toList ++ rest ↔
      path = "/" ++ root ++ "/" ++ String.ofList rest := by
    intro rest
    rw [← String.toList_inj, String.toList_append, String.toList_ofList]
    rfl
  unfold nameInPath? Names
  rw [Option.map_eq_some_iff]
  constructor
  · rintro ⟨rest, hrest, rfl⟩
    rw [Text.dropLead?_eq_some_iff, hwhole] at hrest
    obtain ⟨hslash, hfirst⟩ := firstSegment_eq_iff.mp (rfl : firstSegment rest = firstSegment rest)
    rw [String.toList_ofList]
    refine ⟨hslash, ?_⟩
    rcases hfirst with hfirst | ⟨tail, htail⟩
    · rw [← hfirst]
      exact .inl hrest
    · refine .inr ⟨String.ofList tail, hrest.trans ?_⟩
      generalize firstSegment rest = first at htail
      subst htail
      rw [← String.toList_inj]
      simp
  · rintro ⟨hslash, hpath | ⟨tail, hpath⟩⟩
    · refine ⟨segment.toList, ?_, ?_⟩
      · rw [Text.dropLead?_eq_some_iff, hwhole, String.ofList_toList]
        exact hpath
      · rw [firstSegment_eq_iff.mpr ⟨hslash, .inl rfl⟩, String.ofList_toList]
    · refine ⟨segment.toList ++ '/' :: tail.toList, ?_, ?_⟩
      · rw [Text.dropLead?_eq_some_iff, hwhole, hpath]
        rw [← String.toList_inj]
        simp
      · rw [firstSegment_eq_iff.mpr ⟨hslash, .inr ⟨tail.toList, rfl⟩⟩, String.ofList_toList]

end Event

end BuildHooks
