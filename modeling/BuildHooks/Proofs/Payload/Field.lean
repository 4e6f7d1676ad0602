import BuildHooks.Payload.Field
import BuildHooks.Proofs.Json.Fits

/-! What is selected from a payload that was read is as bounded as the payload: a positive number in it
is below the end of a word. -/

namespace BuildHooks

theorem isAllBlank_iff {s : String} :
    Text.isAllBlank s = true ↔ ∀ c ∈ s.toList, Text.isBlank c = true := by
  rw [Text.isAllBlank, List.all_eq_true]

theorem isAllBlank_eq_false_iff {s : String} :
    Text.isAllBlank s = false ↔ ∃ c ∈ s.toList, Text.isBlank c = false := by
  rw [Text.isAllBlank, List.all_eq_false]
  simp only [Bool.not_eq_true]

namespace Json

theorem Members.mem_of_get? {members : Members} {name : String} {v : Json}
    (h : members.get? name = some v) : ∃ m ∈ members, m.2 = v := by
  unfold Members.get? at h
  obtain ⟨m, hm, rfl⟩ := Option.map_eq_some_iff.mp h
  exact ⟨m, List.mem_of_find?_eq_some hm, rfl⟩

variable {admitted : Number → Prop}

theorem Fits.step? {k : Nat} {v w : Json} {segment : List Char} (hv : Fits admitted k v)
    (h : Payload.step? v segment = some w) : ∃ j, Fits admitted j w := by
  cases hv with
  | null => cases h
  | bool => cases h
  | number => cases h
  | string => cases h
  | array k items hitems =>
      obtain ⟨i, _, hi⟩ := Option.bind_eq_some_iff.mp h
      exact ⟨k, hitems w (List.mem_of_getElem? hi)⟩
  | object k members names hmembers =>
      obtain ⟨m, hm, rfl⟩ := Members.mem_of_get? h
      exact ⟨k, hmembers m hm⟩

theorem Fits.follow? {segments : List (List Char)} {k : Nat} {v w : Json} (hv : Fits admitted k v)
    (h : Payload.follow? v segments = some w) : ∃ j, Fits admitted j w := by
  induction segments generalizing k v with
  | nil =>
      cases h
      exact ⟨k, hv⟩
  | cons segment segments ih =>
      obtain ⟨u, hu, hw⟩ := Option.bind_eq_some_iff.mp h
      obtain ⟨j, hj⟩ := hv.step? hu
      exact ih hj hw

end Json

namespace Payload

theorem fits_of_parse {text : String} {payload : Payload} (h : parse text = .ok payload) :
    Json.Fits Json.Number.Below Json.maxLevels (.object payload) := by
  unfold parse at h
  split at h
  · next hparse =>
    cases h
    exact Json.fits_of_parse hparse
  · cases h
  · cases h

theorem field?_of_present? {payload : Payload} {path : String} {v : Json}
    (h : payload.present? path = some v) : payload.field? path = some v := by
  unfold present? at h
  split at h
  · cases h
  · exact h

/-- A path without a dot selects a member of the payload itself. -/
theorem field?_member (payload : Payload) {name : String}
    (h : Text.split '.' name.toList = [name.toList]) : payload.field? name = payload.get? name := by
  rw [field?, h, follow?, step?, String.ofList_toList]
  cases payload.get? name <;> rfl

theorem requiredText_eq_ok_iff {payload : Payload} {path s : String} :
    payload.requiredText path = .ok s ↔
      payload.field? path = some (.string s) ∧ Text.isAllBlank s = false := by
  unfold requiredText present?
  cases payload.field? path with
  | none => simp
  | some v =>
      cases v with
      | string t =>
          cases ht : Text.isAllBlank t with
          | true =>
              simp only [ht, if_true, reduceCtorEq, Option.some.injEq, Json.string.injEq, false_iff]
              rintro ⟨rfl, hs⟩
              rw [ht] at hs
              cases hs
          | false =>
              simp only [ht, Bool.false_eq_true, if_false, Except.ok.injEq, Option.some.injEq,
                Json.string.injEq, iff_self_and]
              rintro rfl
              exact ht
      | null => simp
      | bool => simp
      | number => simp
      | array => simp
      | object => simp

theorem optionalText_eq_ok_iff {payload : Payload} {path : String} {s? : Option String} :
    payload.optionalText path = .ok s? ↔
      (s? = none ∧ (payload.field? path = none ∨ payload.field? path = some .null)) ∨
        ∃ s, s? = some s ∧ payload.field? path = some (.string s) := by
  unfold optionalText present?
  cases payload.field? path with
  | none => simp [eq_comm]
  | some v =>
      cases v with
      | string t => simp [eq_comm]
      | null => simp [eq_comm]
      | bool => simp
      | number => simp
      | array => simp
      | object => simp

theorem numberOf?_positive_eq_some_iff {v : Json} {n : Nat} :
    numberOf? (fun m => m.unsigned?.filter (0 < ·)) v = some n ↔ v = Json.ofNat n ∧ 0 < n := by
  constructor
  · intro h
    unfold numberOf? at h
    split at h
    · next number =>
      obtain ⟨hunsigned, hpos⟩ := Option.filter_eq_some_iff.mp h
      cases number with
      | real x => cases hunsigned
      | integer i =>
          obtain ⟨hle, hi⟩ := Option.ite_none_right_eq_some.mp hunsigned
          cases hi
          exact ⟨by rw [Json.ofNat, Int.toNat_of_nonneg hle], by simpa using hpos⟩
    · cases h
  · rintro ⟨rfl, hpos⟩
    simp [Json.ofNat, numberOf?, Json.Number.unsigned?, hpos]

theorem requiredPositive_eq_ok_iff {payload : Payload} {path : String} {n : Nat} :
    payload.requiredPositive path = .ok n ↔ payload.field? path = some (Json.ofNat n) ∧ 0 < n := by
  have hpresent : payload.present? path = some (Json.ofNat n) ↔
      payload.field? path = some (Json.ofNat n) := by
    refine ⟨field?_of_present?, fun h => ?_⟩
    rw [present?, h]
    rfl
  rw [← hpresent, requiredPositive]
  cases payload.present? path with
  | none => simp
  | some v =>
      rw [Option.some_inj, ← numberOf?_positive_eq_some_iff]
      simp only
      cases numberOf? (fun m => m.unsigned?.filter (0 < ·)) v <;> simp

theorem numberOf?_signed_eq_some_iff {v : Json} {i : Int} :
    numberOf? Json.Number.signed? v = some i ↔
      v = Json.ofInt i ∧ -(Text.signedEnd : Int) ≤ i ∧ i < Text.signedEnd := by
  constructor
  · intro h
    unfold numberOf? at h
    split at h
    · next number =>
      cases number with
      | real x => cases h
      | integer j =>
          obtain ⟨hrange, hj⟩ := Option.ite_none_right_eq_some.mp h
          cases hj
          exact ⟨rfl, hrange⟩
    · cases h
  · rintro ⟨rfl, hrange⟩
    rw [Json.ofInt, numberOf?, Json.Number.signed?, if_pos hrange]

theorem optionalInteger_eq_ok_iff {payload : Payload} {path : String} {i? : Option Int} :
    payload.optionalInteger path = .ok i? ↔ payload.present? path = i?.map Json.ofInt ∧
      ∀ i ∈ i?, -(Text.signedEnd : Int) ≤ i ∧ i < Text.signedEnd := by
  unfold optionalInteger
  cases hpresent : payload.present? path with
  | none => cases i? <;> simp
  | some v =>
      cases i? with
      | none =>
          simp only [Option.map_none, reduceCtorEq, false_and, iff_false]
          cases numberOf? Json.Number.signed? v <;> simp
      | some i =>
          simp only [Option.map_some, Option.some_inj, Option.mem_some_iff, forall_eq']
          rw [← numberOf?_signed_eq_some_iff]
          cases numberOf? Json.Number.signed? v <;> simp

/-- A positive number in a payload that was read is a word. -/
theorem requiredPositive_lt {text path : String} {payload : Payload} {n : Nat}
    (hparse : parse text = .ok payload) (h : payload.requiredPositive path = .ok n) :
    n < Text.wordEnd := by
  obtain ⟨hfield, _⟩ := requiredPositive_eq_ok_iff.mp h
  obtain ⟨j, hfits⟩ := (fits_of_parse hparse).follow? hfield
  cases hfits with
  | number _ _ hbelow => exact Int.ofNat_lt.mp hbelow

end Payload

end BuildHooks
