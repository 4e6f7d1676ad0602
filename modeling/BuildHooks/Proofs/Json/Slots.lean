import Mathlib.Data.List.Forall2
import BuildHooks.Json.Slot
import BuildHooks.Proofs.Json.RoundTrip

/-! A slot reads off a text what it takes from the document that was written. So it makes no difference
whether a value is read in place or kept as a document and taken from that later. -/

namespace BuildHooks.Json

/-- What a slot takes from a document it reads off its text. -/
def Slot.Agrees {α : Type} (slot : Slot α) : Prop :=
  ∀ v a, slot.ofJson v = .ok a → Takes slot.read v a

theorem takes_readText (expected s : String) : Takes (fun _ => readText expected) (.string s) s := by
  intro steps rest _ _
  rw [chars, stringChars, List.cons_append, List.append_assoc, List.singleton_append]
  simp only [readText, dropGap_cons (c := '"') rfl]
  exact readString_escaped s rest

theorem agrees_text : Slot.text.Agrees := by
  intro v s h
  cases v with
  | string s' =>
      cases h
      exact takes_readText "a string" s
  | _ => cases h

theorem agrees_optionalText : Slot.optionalText.Agrees := by
  intro v s h
  cases v with
  | null =>
      cases h
      intro steps rest _ _
      rw [chars]
      rfl
  | string s' =>
      cases h
      intro steps rest hsteps hrest
      have hread := takes_readText "a string" s' steps rest hsteps hrest
      rw [chars, stringChars, List.cons_append] at hread ⊢
      simp only [Slot.optionalText, dropGap_cons (c := '"') rfl] at hread ⊢
      change (readText "a string" ('"' :: _)).map _ = _
      rw [hread]
      rfl
  | _ => cases h

theorem wholeOf_eq_ok_iff {admits : Int → Bool} {expected : String} {v : Json} {n : Int} :
    wholeOf admits expected v = .ok n ↔ v = .number (.integer n) ∧ admits n = true := by
  unfold wholeOf
  split
  · next m =>
    split
    · next hadmits =>
      constructor
      · intro h
        cases h
        exact ⟨rfl, hadmits⟩
      · rintro ⟨h, _⟩
        cases h
        rfl
    · next hadmits =>
      constructor
      · intro h
        cases h
      · rintro ⟨h, hadmits'⟩
        cases h
        exact absurd hadmits' hadmits
  · next hother =>
    constructor
    · intro h
      cases h
    · rintro ⟨rfl, _⟩
      exact absurd rfl (hother n)

/-- A whole number is read where it is admitted, if a word holds all numbers that are. -/
theorem takes_readWhole (admits : Int → Bool) (expected : String) {n : Int}
    (hadmits : admits n = true) (hexact : (Number.integer n).Exact) :
    Takes (fun _ => readWhole? admits expected) (.number (.integer n)) n := by
  intro steps rest _ hrest
  have hread := readValue_exact hexact hrest 0 0
  obtain ⟨c, cs, hcs, hfirst⟩ := chars_number_eq_cons (.integer n)
  rw [chars, hcs, List.cons_append]
  rw [hcs, List.cons_append] at hread
  have hscalar : isGap c = false ∧ c ≠ '[' ∧ c ≠ '{' ∧
      (c = '-' ∨ (Text.digitValue? c).isSome = true) := by
    rcases hfirst with rfl | ⟨d, hd, rfl⟩
    · exact ⟨rfl, by decide, by decide, .inl rfl⟩
    · obtain ⟨hgap, _, hlist, hobject, _⟩ := digitChar_scalar hd
      exact ⟨hgap, hlist, hobject, .inr (by rw [Text.digitValue?_digitChar hd]; rfl)⟩
  obtain ⟨hgap, hlist, hobject, hnumeral⟩ := hscalar
  rw [readValue_scalar hgap hlist hobject] at hread
  simp only [readWhole?, dropGap_cons hgap]
  rw [if_pos hnumeral, hread]
  simp only [wholeOf_eq_ok_iff.mpr ⟨rfl, hadmits⟩]

theorem agrees_unsigned : Slot.unsigned.Agrees := by
  intro v n h
  obtain ⟨m, hm, rfl⟩ := Except.map_eq_ok.mp h
  obtain ⟨rfl, hadmits⟩ := wholeOf_eq_ok_iff.mp hm
  have hexact : (Number.integer m).Exact := by
    simp only [Bool.and_eq_true, decide_eq_true_eq] at hadmits
    change -(Text.signedEnd : Int) ≤ m ∧ m < Text.wordEnd
    omega
  intro steps rest hsteps hrest
  have hread := takes_readWhole (fun n => 0 ≤ n && n < Text.wordEnd) "u64" hadmits hexact steps rest
    hsteps hrest
  simp only at hread
  simp only [Slot.unsigned]
  rw [hread]
  rfl

theorem wholeOf_integer (admits : Int → Bool) (expected : String) {n : Int}
    (hadmits : admits n = true) : wholeOf admits expected (.number (.integer n)) = .ok n :=
  wholeOf_eq_ok_iff.mpr ⟨rfl, hadmits⟩

theorem unsigned_ofJson {n : Nat} (hn : n < Text.wordEnd) :
    Slot.unsigned.ofJson (ofNat n) = .ok n := by
  simp only [Slot.unsigned, ofNat]
  rw [wholeOf_integer _ "u64" (by simpa using hn)]
  rfl

theorem signed_ofJson {n : Int} (hn : -(Text.signedEnd : Int) ≤ n ∧ n < Text.signedEnd) :
    Slot.signed.ofJson (ofInt n) = .ok n := by
  simp only [Slot.signed, ofInt]
  exact wholeOf_integer _ "i64" (by simpa using hn)

theorem agrees_signed : Slot.signed.Agrees := by
  intro v n h
  obtain ⟨rfl, hadmits⟩ := wholeOf_eq_ok_iff.mp h
  have hexact : (Number.integer n).Exact := by
    simp only [Bool.and_eq_true, decide_eq_true_eq] at hadmits
    change -(Text.signedEnd : Int) ≤ n ∧ n < Text.wordEnd
    unfold Text.signedEnd Text.wordEnd at *
    omega
  exact takes_readWhole (fun n => -(Text.signedEnd : Int) ≤ n && n < Text.signedEnd) "i64" hadmits
    hexact

section

variable {α : Type} {read : Nat → Scan α}

theorem readEach_chars {x : Json} {xs : List Json} {a : α} {as : List α} (hx : Takes read x a)
    (hxs : List.Forall₂ (Takes read) xs as) (done : List α) (steps : Nat)
    (hsteps : 2 * (chars x ++ itemsChars xs).length ≤ steps) (rest : List Char) :
    readEach read steps done (chars x ++ itemsChars xs ++ rest) =
      .ok (done.reverse ++ a :: as, rest) := by
  induction hxs generalizing x a done steps with
  | nil =>
      rw [itemsChars, List.length_append, List.length_singleton] at hsteps
      obtain ⟨steps, rfl⟩ : ∃ s, steps = s + 1 := ⟨steps - 1, by omega⟩
      have hread := hx steps (itemsChars [] ++ rest) (by omega) (endsNumeral_itemsChars [] rest)
      rw [List.append_assoc, readEach, hread]
      simp only
      rw [listOnward_end]
      simp only [List.reverse_cons]
  | @cons y _ ys _ hy _ ih =>
      rw [List.length_append, itemsChars, List.length_cons] at hsteps
      obtain ⟨steps, rfl⟩ : ∃ s, steps = s + 1 := ⟨steps - 1, by omega⟩
      have hread := hx steps (itemsChars (y :: ys) ++ rest) (by omega)
        (endsNumeral_itemsChars (y :: ys) rest)
      rw [List.append_assoc, readEach, hread]
      simp only
      rw [listOnward_itemsChars]
      simp only
      rw [ih hy (a :: done) steps (by omega), List.reverse_cons, List.append_assoc]
      rfl

/-- A list is read if each of its items is. -/
theorem takes_readList {items : List Json} {as : List α} (h : List.Forall₂ (Takes read) items as) :
    Takes (readList read) (.array items) as := by
  intro steps rest hsteps _
  cases h with
  | nil =>
      rw [chars]
      rfl
  | cons hx hxs =>
      rw [chars, List.length_cons] at hsteps
      rw [chars, List.cons_append, readList, dropGap_cons (c := '[') rfl]
      simp only
      rw [List.append_assoc, listStart_chars]
      simp only
      rw [← List.append_assoc, readEach_chars hx hxs [] steps (by omega)]
      rfl

end

theorem forall₂_of_mapM {α β ε : Type} {f : α → Except ε β} {xs : List α} {ys : List β}
    (h : xs.mapM f = .ok ys) : List.Forall₂ (fun x y => f x = .ok y) xs ys := by
  induction xs generalizing ys with
  | nil =>
      cases h
      exact .nil
  | cons x xs ih =>
      rw [List.mapM_cons] at h
      obtain ⟨y, hy, h⟩ := Except.bind_eq_ok.mp h
      obtain ⟨ys, hys, h⟩ := Except.bind_eq_ok.mp h
      cases h
      exact .cons hy (ih hys)

theorem agrees_list {α : Type} {item : Slot α} (hitem : item.Agrees) : (Slot.list item).Agrees := by
  intro v as h
  cases v with
  | array items => exact takes_readList ((forall₂_of_mapM h).imp hitem)
  | _ => cases h

section

variable {α : Type} {choices : List (String × α)} {name : String} {a : α}

theorem readChoiceName_escaped (h : choose choices name = .ok a) (rest : List Char) :
    readChoiceName choices (name.toList.flatMap escapeChar ++ '"' :: rest) = .ok (a, rest) := by
  rw [readChoiceName, readString_escaped]
  simp only [h]

theorem agrees_choice (choices : List (String × α)) : (Slot.choice choices).Agrees := by
  intro v a h steps rest _ _
  simp only [Slot.choice] at h
  split at h
  · next name =>
    rw [chars, stringChars, List.cons_append, List.append_assoc, List.singleton_append]
    simp only [Slot.choice, dropGap_cons (c := '"') rfl]
    exact readChoiceName_escaped h rest
  · next name =>
    rw [chars, stringChars, chars, membersChars]
    simp only [List.cons_append, List.append_assoc, List.nil_append, Slot.choice,
      dropGap_cons (c := '{') rfl, readChoiceObject, dropGap_cons (c := '"') rfl]
    rw [readChoiceName_escaped h]
    rfl
  · cases h

end

end BuildHooks.Json
