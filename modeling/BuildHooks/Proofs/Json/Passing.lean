import BuildHooks.Json.Passing
import BuildHooks.Proofs.Json.Stored

/-! A stored document is passed over, however deep it nests. Passing keeps the brackets around a place
in a list instead of calling itself, so the lemma for a value says that from before it to after it some
steps are used, fewer than two for each character, and the brackets around it stay as they were. -/

namespace BuildHooks.Json

theorem passString_quote (rest : List Char) : passString ('"' :: rest) = .ok rest := by
  rw [passString, if_pos rfl]

theorem passString_escape {cs rest : List Char} (h : passEscape cs = .ok rest) :
    passString ('\\' :: cs) = passString rest := by
  rw [passString, if_neg (by decide), if_pos rfl]
  split
  · next e he =>
    rw [h] at he
    cases he
  · next rest' he =>
    rw [h] at he
    cases he
    rfl

theorem passString_escapeChar (c : Char) (rest : List Char) :
    passString (escapeChar c ++ rest) = passString rest := by
  unfold escapeChar
  split
  · exact passString_escape rfl
  · next hquote =>
    split
    · exact passString_escape rfl
    · next hslash =>
      split
      · next hcontrol =>
        split
        · exact passString_escape rfl
        · exact passString_escape rfl
        · exact passString_escape rfl
        · exact passString_escape rfl
        · exact passString_escape rfl
        · refine passString_escape ?_
          change (readHexUnit ('0' :: '0' :: _ :: _ :: rest)).map Prod.snd = _
          rw [readHexUnit_control hcontrol]
          rfl
      · next hvisible =>
        rw [List.singleton_append, passString, if_neg hquote, if_neg hslash, if_neg hvisible]

/-- A string is passed over up to the quote that closes it. -/
theorem passString_escaped (s rest : List Char) :
    passString (s.flatMap escapeChar ++ '"' :: rest) = .ok rest := by
  induction s with
  | nil => rw [List.flatMap_nil, List.nil_append, passString_quote]
  | cons c s ih => rw [List.flatMap_cons, List.append_assoc, passString_escapeChar, ih]

theorem passName_stringChars (name : String) (rest : List Char) :
    passName (stringChars name ++ ':' :: rest) = .ok rest := by
  rw [stringChars, List.cons_append, List.append_assoc, passName, dropGap_cons rfl]
  simp only
  rw [List.singleton_append, passString_escaped]
  simp only [readColon, dropGap_cons (c := ':') rfl]

theorem passNumeral_of_stored {n : Number} (hn : n.Stored) {rest : List Char}
    (hrest : EndsNumeral rest) :
    ∃ c cs, n.chars = c :: cs ∧ passScalar c (cs ++ rest) = .ok rest := by
  have hnumeral : ∃ ds, passNumeral (ds ++ rest) = .ok rest ∧
      (n.chars = '-' :: ds ∨ n.chars = ds ∧ ∃ d cs, ds = Nat.digitChar d :: cs ∧ d < 10) := by
    cases n with
    | integer n =>
        refine ⟨Nat.toDigits 10 n.natAbs, passNumeral_toDigits _ hrest, ?_⟩
        obtain ⟨d, cs, hcs, hd, _⟩ := Text.toDigits_eq_cons n.natAbs
        rw [chars_integer]
        split
        · exact .inl rfl
        · exact .inr ⟨rfl, d, cs, hcs, hd⟩
    | real x =>
        obtain ⟨_, hspells, _⟩ := exists_readNumeral_spelling hn x.negative
        refine ⟨(spelling x).chars, Spelling.passNumeral_chars hspells hrest, ?_⟩
        obtain ⟨d, cs, hcs, hd, _⟩ := hspells.whole
        rw [chars_real]
        split
        · exact .inl rfl
        · exact .inr ⟨rfl, d, _, by rw [Spelling.chars, hcs, List.cons_append], hd⟩
  obtain ⟨ds, hpass, hminus | ⟨hplain, d, cs, rfl, hd⟩⟩ := hnumeral
  · exact ⟨'-', ds, hminus, hpass⟩
  · obtain ⟨_, _, _, _, hquote, hsign⟩ := digitChar_scalar hd
    refine ⟨_, cs, hplain, ?_⟩
    rw [passScalar, if_neg hquote, if_neg hsign, Text.digitValue?_digitChar hd,
      if_pos Option.isSome_some]
    exact hpass

/-- From before `v` to after it, whatever the brackets around it. -/
def Passes (v : Json) : Prop :=
  ∃ used, used < 2 * (chars v).length ∧ ∀ steps outer rest, EndsNumeral rest →
    passFrom (steps + used) .value outer (chars v ++ rest) = passFrom steps .after outer rest

/-- From after an item to after the list that it is in. -/
def PassesItems (xs : List Json) : Prop :=
  ∃ used, used < 2 * (itemsChars xs).length ∧ ∀ steps outer rest,
    passFrom (steps + used) .after (.list :: outer) (itemsChars xs ++ rest) =
      passFrom steps .after outer rest

/-- From after a member to after the object that it is in. -/
def PassesMembers (ms : Members) : Prop :=
  ∃ used, used < 2 * (membersChars ms).length ∧ ∀ steps outer rest,
    passFrom (steps + used) .after (.object :: outer) (membersChars ms ++ rest) =
      passFrom steps .after outer rest

theorem passes_of_scalar {v : Json} (h : ∀ rest, EndsNumeral rest → ∃ c cs, chars v = c :: cs ∧
    isGap c = false ∧ c ≠ '[' ∧ c ≠ '{' ∧ passScalar c (cs ++ rest) = .ok rest) : Passes v := by
  refine ⟨1, ?_, fun steps outer rest hrest => ?_⟩
  · obtain ⟨c, cs, hcs, _⟩ := h [] endsNumeral_nil
    rw [hcs, List.length_cons]
    omega
  · obtain ⟨c, cs, hcs, hgap, hlist, hobject, hpass⟩ := h rest hrest
    rw [hcs, List.cons_append, passFrom, dropGap_cons hgap]
    split
    · next he => cases he
    · next he =>
      cases he
      exact absurd rfl hlist
    · next he =>
      cases he
      exact absurd rfl hobject
    · next he =>
      cases he
      rw [hpass]

section

variable (steps : Nat) (outer : List Bracket)

theorem passFrom_list (cs : List Char) :
    passFrom (steps + 1) .value outer ('[' :: cs) = passFrom steps (.begun .list) outer cs := by
  rw [passFrom, dropGap_cons (c := '[') rfl]
  simp only

theorem passFrom_object (cs : List Char) :
    passFrom (steps + 1) .value outer ('{' :: cs) = passFrom steps (.begun .object) outer cs := by
  rw [passFrom, dropGap_cons (c := '{') rfl]
  simp only

theorem passFrom_begun_list (v : Json) (rest : List Char) :
    passFrom (steps + 1) (.begun .list) outer (chars v ++ rest) =
      passFrom steps .value (.list :: outer) (chars v ++ rest) := by
  obtain ⟨c, cs, hcs, hgap, hend⟩ := chars_eq_cons v
  rw [hcs, List.cons_append, passFrom.eq_def]
  simp only [dropGap_cons hgap]
  split
  · next he => cases he
  · next he => cases he
  · next he =>
    cases he
    exact absurd rfl hend
  · next hbracket _ => cases hbracket
  · next he _ _ =>
    cases he
    rfl

theorem passFrom_begun_object (name : String) (cs : List Char) :
    passFrom (steps + 1) (.begun .object) outer (stringChars name ++ ':' :: cs) =
      passFrom steps .value (.object :: outer) cs := by
  have hname : passLead .object (stringChars name ++ ':' :: cs) = .ok cs :=
    passName_stringChars name cs
  rw [stringChars, List.cons_append] at hname ⊢
  rw [passFrom.eq_def]
  simp only [dropGap_cons (c := '"') rfl]
  split
  · next he => cases he
  · next he => cases he
  · next hbracket _ => cases hbracket
  · next he => cases he
  · next he _ _ =>
    cases he
    rw [hname]

theorem passFrom_comma_list (cs : List Char) :
    passFrom (steps + 1) .after (.list :: outer) (',' :: cs) =
      passFrom steps .value (.list :: outer) cs :=
  rfl

theorem passFrom_comma_object (name : String) (cs : List Char) :
    passFrom (steps + 1) .after (.object :: outer) (',' :: (stringChars name ++ ':' :: cs)) =
      passFrom steps .value (.object :: outer) cs := by
  have hname : passLead .object (stringChars name ++ ':' :: cs) = .ok cs :=
    passName_stringChars name cs
  simp only [passFrom, dropGap_cons (c := ',') rfl]
  rw [hname]

end

theorem passesItems {xs : List Json} (h : ∀ x ∈ xs, Passes x) : PassesItems xs := by
  induction xs with
  | nil =>
      refine ⟨1, by decide, fun steps outer rest => ?_⟩
      rw [itemsChars]
      rfl
  | cons x xs ih =>
      obtain ⟨hx, hxs⟩ := List.forall_mem_cons.mp h
      obtain ⟨usedItem, hitem, hpassItem⟩ := hx
      obtain ⟨usedItems, hitems, hpassItems⟩ := ih hxs
      refine ⟨usedItems + usedItem + 1, ?_, fun steps outer rest => ?_⟩
      · rw [itemsChars, List.length_cons, List.length_append]
        omega
      · rw [itemsChars, List.cons_append, List.append_assoc, ← Nat.add_assoc, ← Nat.add_assoc,
          passFrom_comma_list, hpassItem _ _ _ (endsNumeral_itemsChars xs rest), hpassItems]

theorem passesMembers {ms : Members} (h : ∀ m ∈ ms, Passes m.2) : PassesMembers ms := by
  induction ms with
  | nil =>
      refine ⟨1, by decide, fun steps outer rest => ?_⟩
      rw [membersChars]
      rfl
  | cons m ms ih =>
      obtain ⟨name, x⟩ := m
      obtain ⟨hx, hms⟩ := List.forall_mem_cons.mp h
      obtain ⟨usedMember, hmember, hpassMember⟩ := hx
      obtain ⟨usedMembers, hmembers, hpassMembers⟩ := ih hms
      refine ⟨usedMembers + usedMember + 1, ?_, fun steps outer rest => ?_⟩
      · simp only [membersChars, List.length_cons, List.length_append] at hmember ⊢
        omega
      · rw [membersChars, List.cons_append, List.append_assoc, List.cons_append, List.append_assoc,
          ← Nat.add_assoc, ← Nat.add_assoc, passFrom_comma_object,
          hpassMember _ _ _ (endsNumeral_membersChars ms rest), hpassMembers]

theorem passes {v : Json} (hv : Stored v) : Passes v := by
  induction v using induct with
  | null => exact passes_of_scalar fun rest _ => ⟨'n', _, by rw [chars], rfl, by decide, by decide, rfl⟩
  | bool b =>
      cases b with
      | true =>
          exact passes_of_scalar fun rest _ => ⟨'t', _, by rw [chars], rfl, by decide, by decide, rfl⟩
      | false =>
          exact passes_of_scalar fun rest _ => ⟨'f', _, by rw [chars], rfl, by decide, by decide, rfl⟩
  | number n =>
      refine passes_of_scalar fun rest hrest => ?_
      obtain ⟨c, cs, hcs, hpass⟩ := passNumeral_of_stored (hv n (List.mem_singleton_self n)) hrest
      obtain ⟨c', cs', hcs', hfirst⟩ := chars_number_eq_cons n
      rw [hcs] at hcs'
      cases hcs'
      refine ⟨c, cs, by rw [chars, hcs], ?_⟩
      rcases hfirst with rfl | ⟨d, hd, rfl⟩
      · exact ⟨rfl, by decide, by decide, hpass⟩
      · obtain ⟨hgap, _, hlist, hobject, _⟩ := digitChar_scalar hd
        exact ⟨hgap, hlist, hobject, hpass⟩
  | string s =>
      refine passes_of_scalar fun rest _ =>
        ⟨'"', _, by rw [chars, stringChars], rfl, by decide, by decide, ?_⟩
      rw [List.append_assoc, List.singleton_append]
      exact passString_escaped s.toList rest
  | array items ih =>
      have hitems : ∀ x ∈ items, Passes x := fun x hx => ih x hx (stored_array_iff.mp hv x hx)
      cases items with
      | nil => exact ⟨2, by rw [chars]; decide, fun steps outer rest _ => by rw [chars]; rfl⟩
      | cons x xs =>
          obtain ⟨⟨usedItem, hitem, hpassItem⟩, hxs⟩ := List.forall_mem_cons.mp hitems
          obtain ⟨usedItems, husedItems, hpassItems⟩ := passesItems hxs
          refine ⟨usedItems + usedItem + 2, ?_, fun steps outer rest _ => ?_⟩
          · rw [chars, List.length_cons, List.length_append]
            omega
          · rw [chars, List.cons_append, List.append_assoc, ← Nat.add_assoc, ← Nat.add_assoc,
              passFrom_list, passFrom_begun_list, hpassItem _ _ _ (endsNumeral_itemsChars xs rest),
              hpassItems]
  | object members ih =>
      have hmembers : ∀ m ∈ members, Passes m.2 := fun m hm => ih m hm (stored_object_iff.mp hv m hm)
      cases members with
      | nil => exact ⟨2, by rw [chars]; decide, fun steps outer rest _ => by rw [chars]; rfl⟩
      | cons m ms =>
          obtain ⟨name, x⟩ := m
          obtain ⟨⟨usedMember, hmember, hpassMember⟩, hms⟩ := List.forall_mem_cons.mp hmembers
          obtain ⟨usedMembers, husedMembers, hpassMembers⟩ := passesMembers hms
          refine ⟨usedMembers + usedMember + 2, ?_, fun steps outer rest _ => ?_⟩
          · simp only [chars, List.length_cons, List.length_append] at hmember ⊢
            omega
          · rw [chars, List.cons_append, List.append_assoc, List.cons_append, List.append_assoc,
              ← Nat.add_assoc, ← Nat.add_assoc, passFrom_object, passFrom_begun_object,
              hpassMember _ _ _ (endsNumeral_membersChars ms rest), hpassMembers]

/-- A stored document is passed over from enough steps on. -/
theorem passValue_chars {v : Json} (hv : Stored v) {steps : Nat} (hsteps : 2 * (chars v).length ≤ steps)
    {rest : List Char} (hrest : EndsNumeral rest) : passValue steps (chars v ++ rest) = .ok rest := by
  obtain ⟨used, hused, hpass⟩ := passes hv
  obtain ⟨more, rfl⟩ : ∃ more, steps = more + 1 + used := ⟨steps - used - 1, by omega⟩
  rw [passValue, hpass _ _ _ hrest]
  rfl

end BuildHooks.Json
