import Mathlib.Data.List.Induction
import BuildHooks.Proofs.Json.Fits
import BuildHooks.Proofs.Json.Numerals

/-! Which texts are numbers. A numeral is read digit by digit from its start, and each digit after the
first is worth a tenth of the one before. -/

namespace BuildHooks.Text

/-- Decimal digits that write a number, perhaps with zeros before it. -/
inductive Numeral : List Char → Nat → Prop where
  | digit (d : Nat) (hd : d < 10) : Numeral [Nat.digitChar d] d
  | more (cs : List Char) (n d : Nat) (h : Numeral cs n) (hd : d < 10) :
      Numeral (cs ++ [Nat.digitChar d]) (10 * n + d)

variable {cs : List Char} {c : Char} {d n : Nat}

theorem digitValue?_eq_some_iff : digitValue? c = some d ↔ d < 10 ∧ c = Nat.digitChar d := by
  constructor
  · intro h
    refine ⟨Json.digitValue?_lt h, ?_⟩
    unfold digitValue? at h
    split at h
    · next hc =>
      cases h
      rw [Bool.and_eq_true, decide_eq_true_eq, decide_eq_true_eq] at hc
      have hle : 48 ≤ c.toNat ∧ c.toNat ≤ 57 := hc
      rw [← Char.toNat_inj, Nat.toNat_digitChar_of_lt_ten (by omega)]
      omega
    · cases h
  · rintro ⟨hd, rfl⟩
    exact digitValue?_digitChar hd

theorem digitsFrom?_concat (value : Nat) (cs : List Char) (c : Char) :
    digitsFrom? value (cs ++ [c]) =
      (digitsFrom? value cs).bind fun n => (digitValue? c).map fun d => n * 10 + d := by
  rw [digitsFrom?_append]
  congr 1
  funext n
  rw [digitsFrom?]
  cases digitValue? c <;> rfl

theorem Numeral.ne_nil (h : Numeral cs n) : cs ≠ [] := by
  cases h with
  | digit => exact List.cons_ne_nil _ _
  | more => exact List.append_ne_nil_of_right_ne_nil _ (List.cons_ne_nil _ _)

/-- Digits are numerals, as they are read from the first to the last. -/
theorem digitsFrom?_eq_some_iff (h : cs ≠ []) : digitsFrom? 0 cs = some n ↔ Numeral cs n := by
  constructor
  · intro hread
    induction cs using List.reverseRecOn generalizing n with
    | nil => exact absurd rfl h
    | append_singleton cs c ih =>
        rw [digitsFrom?_concat, Option.bind_eq_some_iff] at hread
        obtain ⟨m, hm, hread⟩ := hread
        obtain ⟨d, hc, rfl⟩ := Option.map_eq_some_iff.mp hread
        obtain ⟨hd, rfl⟩ := digitValue?_eq_some_iff.mp hc
        by_cases hcs : cs = []
        · cases hcs
          cases hm
          rw [Nat.zero_mul, Nat.zero_add]
          exact .digit d hd
        · rw [Nat.mul_comm]
          exact .more cs m d (ih hcs hm) hd
  · intro hnumeral
    induction hnumeral with
    | digit d hd =>
        rw [digitsFrom?, digitValue?_digitChar hd]
        simp only [digitsFrom?, Nat.zero_mul, Nat.zero_add]
    | more cs n d hn hd ih =>
        rw [digitsFrom?_concat, ih hn.ne_nil, digitValue?_digitChar hd, Nat.mul_comm]
        rfl

theorem natural?_eq_some_iff : natural? cs = some n ↔ Numeral cs n := by
  cases cs with
  | nil => exact iff_of_false (fun h => by cases h) fun h => h.ne_nil rfl
  | cons c cs => exact digitsFrom?_eq_some_iff (List.cons_ne_nil c cs)

/-- A number is written by a numeral. -/
theorem numeral_showNat (n : Nat) : Numeral (showNat n).toList n := by
  rw [showNat, Nat.toList_repr, ← digitsFrom?_eq_some_iff Nat.toDigits_ne_nil]
  exact digitsFrom?_toDigits n

theorem isDigit_of_mem_showNat (h : c ∈ (showNat n).toList) : c.isDigit = true := by
  rw [showNat, Nat.toList_repr] at h
  exact Nat.isDigit_of_mem_toDigits (by decide) (by decide) h

/-- A plus sign may stand before a numeral that is read. -/
theorem naturalBelow?_eq_some_iff {bound : Nat} : naturalBelow? bound cs = some n ↔
    n < bound ∧ (Numeral cs n ∨ ∃ digits, cs = '+' :: digits ∧ Numeral digits n) := by
  unfold naturalBelow?
  rw [Option.filter_eq_some_iff, decide_eq_true_eq, and_comm, natural?_eq_some_iff]
  refine and_congr_right fun _ => ?_
  split
  · next rest =>
    constructor
    · intro h
      exact .inr ⟨rest, rfl, h⟩
    · rintro (h | ⟨digits, heq, h⟩)
      · have hnone : natural? ('+' :: rest) = none := rfl
        rw [natural?_eq_some_iff.mpr h] at hnone
        cases hnone
      · cases heq
        exact h
  · next hplus =>
    constructor
    · exact .inl
    · rintro (h | ⟨digits, rfl, _⟩)
      · exact h
      · exact absurd rfl (hplus digits)

end BuildHooks.Text
