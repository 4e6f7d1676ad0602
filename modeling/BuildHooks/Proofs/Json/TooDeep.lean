import BuildHooks.Proofs.Json.RoundTrip

/-! The text of a document that nests deeper than the reader goes is refused for that. Whatever stands
before the first bracket too many is read back as it was, so no other fault is found first. -/

namespace BuildHooks

namespace Json

/-- The reading came to nothing because of a bracket too many. -/
def StopsTooDeep {α : Type} (read : Except Fault α) : Prop :=
  ∃ fault, read = .error fault ∧ fault.problem = .tooDeep

/-- From enough steps on, the reader stops within the text of `v` whatever follows it. -/
def Overflows (levels : Nat) (v : Json) : Prop :=
  ∀ steps rest, 2 * (chars v).length ≤ steps → StopsTooDeep (readValue steps levels (chars v ++ rest))

variable {j k : Nat}

theorem stops_readItems_first {x : Json} (hx : Overflows k x) (xs done : List Json) (steps : Nat)
    (hsteps : 2 * (chars x ++ itemsChars xs).length ≤ steps) (rest : List Char) :
    StopsTooDeep (readItems steps k done (chars x ++ itemsChars xs ++ rest)) := by
  have hlast : 0 < (itemsChars xs).length := by cases xs <;> simp [itemsChars]
  rw [List.length_append] at hsteps
  obtain ⟨steps, rfl⟩ : ∃ s, steps = s + 1 := ⟨steps - 1, by omega⟩
  obtain ⟨fault, hread, hfault⟩ := hx steps (itemsChars xs ++ rest) (by omega)
  refine ⟨fault, ?_, hfault⟩
  rw [List.append_assoc, readItems, hread]

/-- The first item that nests too deep stops the reader. -/
theorem stops_readItems {x : Json} {xs : List Json}
    (hfits : ∀ y ∈ x :: xs, Fits Number.Whole j y)
    (hover : ∀ y ∈ x :: xs, k < depth y → Overflows k y) (hdeep : k < depthOfItems (x :: xs))
    (done : List Json) (steps : Nat) (hsteps : 2 * (chars x ++ itemsChars xs).length ≤ steps)
    (rest : List Char) :
    StopsTooDeep (readItems steps k done (chars x ++ itemsChars xs ++ rest)) := by
  induction xs generalizing x done steps with
  | nil =>
      have hx : k < depth x := by simpa [depthOfItems] using hdeep
      exact stops_readItems_first (hover x (by simp) hx) [] done steps hsteps rest
  | cons y ys ih =>
      by_cases hx : k < depth x
      · exact stops_readItems_first (hover x (by simp) hx) (y :: ys) done steps hsteps rest
      -- This item is read back, so the one that is too deep stands among the others.
      · rw [List.length_append, itemsChars, List.length_cons] at hsteps
        obtain ⟨steps, rfl⟩ : ∃ s, steps = s + 1 := ⟨steps - 1, by omega⟩
        have hfit := (hfits x (by simp)).of_depth_le (Nat.le_of_not_lt hx)
        have hys : k < depthOfItems (y :: ys) := by
          rw [depthOfItems] at hdeep
          omega
        rw [readItems_next (readsBack hfit).takes y ys done (by omega)]
        exact ih (fun z hz => hfits z (List.mem_cons_of_mem _ hz))
          (fun z hz => hover z (List.mem_cons_of_mem _ hz)) hys (x :: done) steps (by omega)

theorem stops_readMembers_first {x : Json} (hx : Overflows k x) (name : String) (ms done : Members)
    (steps : Nat) (hsteps : 2 * (chars x ++ membersChars ms).length + 2 ≤ steps) (rest : List Char) :
    StopsTooDeep (readMembers steps k done (name.toList.flatMap escapeChar ++
      '"' :: ':' :: (chars x ++ membersChars ms ++ rest))) := by
  rw [List.length_append] at hsteps
  obtain ⟨steps, rfl⟩ : ∃ s, steps = s + 1 := ⟨steps - 1, by omega⟩
  obtain ⟨fault, hread, hfault⟩ := hx steps (membersChars ms ++ rest) (by omega)
  refine ⟨fault, ?_, hfault⟩
  rw [List.append_assoc, readMembers, readString_escaped]
  simp only [readColon, dropGap_cons (c := ':') rfl, hread]

theorem stops_readMembers {name : String} {x : Json} {ms : Members}
    (hfits : ∀ m ∈ (name, x) :: ms, Fits Number.Whole j m.2)
    (hover : ∀ m ∈ (name, x) :: ms, k < depth m.2 → Overflows k m.2)
    (hdeep : k < depthOfMembers ((name, x) :: ms)) (done : Members) (steps : Nat)
    (hsteps : 2 * (chars x ++ membersChars ms).length + 2 ≤ steps) (rest : List Char) :
    StopsTooDeep (readMembers steps k done (name.toList.flatMap escapeChar ++
      '"' :: ':' :: (chars x ++ membersChars ms ++ rest))) := by
  induction ms generalizing name x done steps with
  | nil =>
      have hx : k < depth x := by simpa [depthOfMembers] using hdeep
      exact stops_readMembers_first (hover (name, x) (by simp) hx) name [] done steps hsteps rest
  | cons m ms ih =>
      obtain ⟨name', y⟩ := m
      by_cases hx : k < depth x
      · exact stops_readMembers_first (hover (name, x) (by simp) hx) name _ done steps hsteps rest
      · simp only [List.length_append, membersChars, List.length_cons] at hsteps
        obtain ⟨steps, rfl⟩ : ∃ s, steps = s + 1 := ⟨steps - 1, by omega⟩
        have hfit := (hfits (name, x) (by simp)).of_depth_le (Nat.le_of_not_lt hx)
        have hms : k < depthOfMembers ((name', y) :: ms) := by
          rw [depthOfMembers] at hdeep
          omega
        rw [readMembers_next (readsBack hfit).takes name name' y ms done (by simp only; omega)]
        -- What the members so far were put together to is never seen, so their names may be any.
        exact ih (fun z hz => hfits z (List.mem_cons_of_mem _ hz))
          (fun z hz => hover z (List.mem_cons_of_mem _ hz)) hms _ steps
          (by rw [List.length_append]; omega)

theorem chars_array (items : List Json) : ∃ cs, chars (.array items) = '[' :: cs := by
  cases items with
  | nil => exact ⟨_, by rw [chars]⟩
  | cons x xs => exact ⟨_, by rw [chars]⟩

theorem chars_object (members : Members) : ∃ cs, chars (.object members) = '{' :: cs := by
  cases members with
  | nil => exact ⟨_, by rw [chars]⟩
  | cons m ms => exact ⟨_, by rw [chars]⟩

/-- A document is not read where it nests deeper than there are levels left. -/
theorem overflows {v : Json} (h : Fits Number.Whole j v) (hdeep : k < depth v) : Overflows k v := by
  induction h generalizing k with
  | null => cases hdeep
  | bool => cases hdeep
  | number => cases hdeep
  | string => cases hdeep
  | array j items hitems ih =>
      intro steps rest hsteps
      obtain ⟨cs, hcs⟩ := chars_array items
      have hlength : 0 < (chars (.array items)).length := by rw [hcs]; exact Nat.succ_pos _
      obtain ⟨steps, rfl⟩ : ∃ s, steps = s + 1 := ⟨steps - 1, by omega⟩
      -- Without a level left the bracket itself is refused, be the list empty or not.
      cases k with
      | zero => exact ⟨faultAt .tooDeep ('[' :: (cs ++ rest)), by rw [hcs]; rfl, rfl⟩
      | succ k =>
          have hinner := Nat.lt_of_succ_lt_succ hdeep
          cases items with
          | nil => cases hinner
          | cons x xs =>
              rw [chars, List.length_cons] at hsteps
              rw [chars, List.cons_append, readValue, dropGap_cons rfl]
              simp only
              rw [List.append_assoc, listStart_chars x, ← List.append_assoc]
              exact stops_readItems hitems (fun y hy => ih y hy) hinner [] steps (by omega) rest
  | object j members names hmembers ih =>
      intro steps rest hsteps
      obtain ⟨cs, hcs⟩ := chars_object members
      have hlength : 0 < (chars (.object members)).length := by rw [hcs]; exact Nat.succ_pos _
      obtain ⟨steps, rfl⟩ : ∃ s, steps = s + 1 := ⟨steps - 1, by omega⟩
      cases k with
      | zero => exact ⟨faultAt .tooDeep ('{' :: (cs ++ rest)), by rw [hcs]; rfl, rfl⟩
      | succ k =>
          have hinner := Nat.lt_of_succ_lt_succ hdeep
          cases members with
          | nil => cases hinner
          | cons m ms =>
              obtain ⟨name, x⟩ := m
              rw [chars, stringChars] at hsteps ⊢
              simp only [List.length_cons, List.length_append] at hsteps
              have hstop := stops_readMembers hmembers (fun m hm => ih m hm) hinner [] steps
                (by rw [List.length_append]; omega) rest
              rw [List.append_assoc] at hstop
              rw [List.cons_append, readValue, dropGap_cons rfl]
              simp only [objectStart, List.cons_append, List.append_assoc, List.nil_append,
                dropGap_cons (c := '"') rfl]
              exact hstop

/-- A text that goes too deep is refused for that. -/
theorem parse_render_of_deep {v : Json} (h : Fits Number.Whole j v) (hdeep : maxLevels < depth v) :
    ∃ complaint, parse (render v) = .error complaint ∧ complaint.problem = .tooDeep := by
  obtain ⟨fault, hread, hfault⟩ :=
    overflows h hdeep (stepsFor (chars v)) [] (by unfold stepsFor; omega)
  rw [List.append_nil] at hread
  refine ⟨fault.complaint (chars v), ?_, hfault⟩
  unfold parse parseWith readWhole
  rw [toList_render]
  simp only [hread]

end Json

theorem Payload.parse_text_of_deep {payload : Payload} {j : Nat}
    (h : Json.Fits Json.Number.Whole j (.object payload))
    (hdeep : Json.maxLevels < Json.depth (.object payload)) :
    ∃ complaint, parse payload.text = .error (.notJson complaint) ∧ complaint.problem = .tooDeep := by
  obtain ⟨complaint, hparse, hproblem⟩ := Json.parse_render_of_deep h hdeep
  exact ⟨complaint, by rw [parse, text, hparse], hproblem⟩

end BuildHooks
