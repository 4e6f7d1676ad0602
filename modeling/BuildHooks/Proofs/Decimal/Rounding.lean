import Mathlib.Algebra.Order.Field.Power
import Mathlib.Tactic.FieldSimp
import Mathlib.Tactic.Linarith
import Mathlib.Tactic.NormNum
import Mathlib.Tactic.Positivity
import Mathlib.Tactic.Ring
import BuildHooks.Decimal.Binary64

/-! How far rounding goes. A quotient is rounded to a number at most half a unit in the last place away,
which is a 2^53rd of the quotient unless that is tiny, and there is such a number whenever the quotient
stays below the middle between the largest number and the next power of two. Reading a decimal rounds
three times at most, so a decimal that is a little further below that middle is always read. -/

namespace BuildHooks.Binary64

/-- The number without its sign. -/
def size (x : Binary64) : ℚ :=
  x.mantissa * (2 : ℚ) ^ x.exponent

/-- The middle between the largest number and the next power of two. -/
def sizeEnd : ℚ :=
  (2 ^ 54 - 1) * 2 ^ 970

theorem sizeEnd_lt : sizeEnd < 2 ^ (1024 : ℤ) := by
  rw [sizeEnd, show (1024 : ℤ) = (54 : ℕ) + (970 : ℕ) by norm_num, zpow_add₀ two_ne_zero,
    zpow_natCast, zpow_natCast]
  exact mul_lt_mul_of_pos_right (by norm_num) (by positivity)

theorem size_nonneg (x : Binary64) : 0 ≤ x.size := by
  unfold size
  positivity

section

variable {num den : ℕ}

/-- Twice what is rounded is within one denominator of twice the numerator. -/
theorem roundQuotient_bounds (num : ℕ) (hden : 0 < den) :
    2 * num ≤ 2 * (roundQuotient num den * den) + den ∧
      2 * (roundQuotient num den * den) ≤ 2 * num + den ∧ roundQuotient num den * den ≤ 2 * num := by
  have hsplit := Nat.div_add_mod num den
  have hmod := Nat.mod_lt num hden
  unfold roundQuotient
  simp only
  generalize num / den = q at *
  generalize num % den = r at *
  rw [Nat.mul_comm] at hsplit
  split
  · omega
  · split
    · rw [Nat.add_mul, Nat.one_mul]
      omega
    · rcases Nat.mod_two_eq_zero_or_one q with heven | hodd
      · rw [heven, Nat.add_zero]
        omega
      · rw [hodd, Nat.add_mul, Nat.one_mul]
        omega

theorem roundQuotient_dist (num : ℕ) (hden : 0 < den) :
    |(roundQuotient num den : ℚ) - num / den| ≤ 1 / 2 := by
  obtain ⟨hlow, hhigh, _⟩ := roundQuotient_bounds num hden
  have hpos : (0 : ℚ) < den := by exact_mod_cast hden
  have hlow' : (2 * num : ℚ) ≤ 2 * (roundQuotient num den * den) + den := by exact_mod_cast hlow
  have hhigh' : (2 * (roundQuotient num den * den) : ℚ) ≤ 2 * num + den := by exact_mod_cast hhigh
  rw [abs_le]
  constructor
  · rw [neg_le_sub_iff_le_add, div_le_iff₀ hpos]
    linarith
  · rw [sub_le_iff_le_add', ← sub_le_iff_le_add, le_div_iff₀ hpos]
    linarith

theorem roundQuotient_le (num : ℕ) (hden : 0 < den) :
    (roundQuotient num den : ℚ) ≤ 2 * (num / den) := by
  have hpos : (0 : ℚ) < den := by exact_mod_cast hden
  rw [← mul_div_assoc, le_div_iff₀ hpos]
  exact_mod_cast (roundQuotient_bounds num hden).2.2

theorem two_zpow_eq (e : ℤ) : (2 : ℚ) ^ e = 2 ^ e.toNat / 2 ^ (-e).toNat := by
  obtain ⟨n, rfl | rfl⟩ := e.eq_nat_or_neg <;> simp

theorem unscale_ratio (num den : ℕ) (e : ℤ) :
    ((unscale num den e).1 : ℚ) / (unscale num den e).2 = num / den / 2 ^ e := by
  rw [two_zpow_eq, unscale]
  simp only [Nat.pow_eq, Nat.cast_mul, Nat.cast_pow, Nat.cast_ofNat]
  field_simp

theorem unscale_pos (num : ℕ) (hden : 0 < den) (e : ℤ) : 0 < (unscale num den e).2 :=
  Nat.mul_pos hden (Nat.pow_pos (by decide))

theorem unscale_div_lt_iff (num : ℕ) (hden : 0 < den) (e : ℤ) (k : ℕ) :
    (unscale num den e).1 / (unscale num den e).2 < k ↔ (num / den : ℚ) / 2 ^ e < k := by
  have hpos : (0 : ℚ) < (unscale num den e).2 := by exact_mod_cast unscale_pos num hden e
  rw [← unscale_ratio, Nat.div_lt_iff_lt_mul (unscale_pos num hden e), div_lt_iff₀ hpos]
  exact_mod_cast Iff.rfl

/-- The binary logarithms tell the magnitude of a quotient up to a factor of two either way. -/
theorem ratio_bounds (hnum : 0 < num) (hden : 0 < den) :
    (2 : ℚ) ^ ((Nat.log2 num : ℤ) - Nat.log2 den - 1) ≤ num / den ∧
      (num / den : ℚ) < 2 ^ ((Nat.log2 num : ℤ) - Nat.log2 den + 1) := by
  have hpos : (0 : ℚ) < den := by exact_mod_cast hden
  have hnumLow : (2 : ℚ) ^ (Nat.log2 num : ℤ) ≤ num := by
    rw [zpow_natCast]
    exact_mod_cast Nat.log2_self_le hnum.ne'
  have hnumHigh : (num : ℚ) < 2 ^ ((Nat.log2 num : ℤ) + 1) := by
    rw [← Nat.cast_succ, zpow_natCast]
    exact_mod_cast Nat.lt_log2_self
  have hdenLow : (2 : ℚ) ^ (Nat.log2 den : ℤ) ≤ den := by
    rw [zpow_natCast]
    exact_mod_cast Nat.log2_self_le hden.ne'
  have hdenHigh : (den : ℚ) < 2 ^ ((Nat.log2 den : ℤ) + 1) := by
    rw [← Nat.cast_succ, zpow_natCast]
    exact_mod_cast Nat.lt_log2_self
  constructor
  · rw [sub_sub, zpow_sub₀ two_ne_zero]
    exact div_le_div₀ (by positivity) hnumLow hpos hdenHigh.le
  · rw [sub_add_eq_add_sub, zpow_sub₀ two_ne_zero]
    exact div_lt_div₀ hnumHigh hdenLow (by positivity) (by positivity)

theorem exponentFor_ge (num den : ℕ) : -1074 ≤ exponentFor num den :=
  le_max_right _ _

/-- At the exponent for a quotient its mantissa has at most 53 binary digits, and exactly 53 unless
the exponent is the least one. -/
theorem exponentFor_spec (hnum : 0 < num) (hden : 0 < den) :
    (num / den : ℚ) < 2 ^ (exponentFor num den + 53) ∧
      (-1074 < exponentFor num den → (2 : ℚ) ^ (exponentFor num den + 52) ≤ num / den) := by
  obtain ⟨hlow, hhigh⟩ := ratio_bounds hnum hden
  obtain ⟨e, he⟩ : ∃ e : ℤ, e = (Nat.log2 num : ℤ) - Nat.log2 den - 52 := ⟨_, rfl⟩
  have hfull : ((fullMantissa : ℕ) : ℚ) = 2 ^ (52 : ℤ) := by norm_num [fullMantissa]
  have htest := unscale_div_lt_iff num hden e fullMantissa
  rw [div_lt_iff₀ (by positivity), hfull, ← zpow_add₀ two_ne_zero, add_comm 52] at htest
  have hexponent : exponentFor num den =
      max (if (num / den : ℚ) < 2 ^ (e + 52) then e - 1 else e) (-1074) := by
    unfold exponentFor
    simp only [← he, htest]
  rw [show (Nat.log2 num : ℤ) - Nat.log2 den - 1 = e + 51 by omega] at hlow
  rw [show (Nat.log2 num : ℤ) - Nat.log2 den + 1 = e + 53 by omega] at hhigh
  rw [hexponent]
  split
  · next hsmall =>
    refine ⟨hsmall.trans_le (zpow_le_zpow_right₀ one_le_two (by omega)), fun hgt => ?_⟩
    rw [max_eq_left (by omega)]
    exact (zpow_le_zpow_right₀ one_le_two (by omega)).trans hlow
  · next hlarge =>
    refine ⟨hhigh.trans_le (zpow_le_zpow_right₀ one_le_two (by omega)), fun hgt => ?_⟩
    rw [max_eq_left (by omega)]
    exact not_lt.mp hlarge

/-- The number that a quotient is rounded to, be it too large or not. -/
def nearest (negative : Bool) (num den : ℕ) : Binary64 :=
  let e := exponentFor num den
  let m := roundQuotient (unscale num den e).1 (unscale num den e).2
  if m = 2 * fullMantissa then ⟨negative, fullMantissa, e + 1⟩ else ⟨negative, m, e⟩

variable {negative : Bool}

theorem ofRatio?_eq (hnum : 0 < num) :
    ofRatio? negative num den =
      if 971 < (nearest negative num den).exponent then none else some (nearest negative num den) := by
  rw [ofRatio?, if_neg hnum.ne']
  rfl

theorem size_nearest :
    (nearest negative num den).size =
      roundQuotient (unscale num den (exponentFor num den)).1 (unscale num den (exponentFor num den)).2 *
        2 ^ exponentFor num den := by
  unfold nearest
  simp only
  split
  · next hm =>
    rw [hm, size, zpow_add_one₀ two_ne_zero]
    push_cast
    ring
  · rfl

theorem nearest_dist (negative : Bool) (num : ℕ) (hden : 0 < den) :
    |(nearest negative num den).size - num / den| ≤ 2 ^ (exponentFor num den - 1) := by
  have hdist := roundQuotient_dist (unscale num den (exponentFor num den)).1
    (unscale_pos num hden (exponentFor num den))
  rw [unscale_ratio] at hdist
  have hpos : (0 : ℚ) < 2 ^ exponentFor num den := by positivity
  rw [size_nearest, zpow_sub_one₀ two_ne_zero]
  calc |_ * (2 : ℚ) ^ exponentFor num den - num / den|
      = |_ - (num / den : ℚ) / 2 ^ exponentFor num den| * 2 ^ exponentFor num den := by
        rw [← abs_of_pos hpos, ← abs_mul, abs_of_pos hpos, sub_mul, div_mul_cancel₀ _ hpos.ne']
    _ ≤ 1 / 2 * 2 ^ exponentFor num den := mul_le_mul_of_nonneg_right hdist hpos.le
    _ = 2 ^ exponentFor num den * 2⁻¹ := by ring

theorem nearest_le (hden : 0 < den) : (nearest negative num den).size ≤ 2 * (num / den) := by
  have hle := roundQuotient_le (unscale num den (exponentFor num den)).1
    (unscale_pos num hden (exponentFor num den))
  have hpos : (0 : ℚ) < 2 ^ exponentFor num den := by positivity
  rw [unscale_ratio, ← mul_div_assoc, le_div_iff₀ hpos] at hle
  rwa [size_nearest]

/-- Half a unit in the last place is a 2^53rd of a quotient that is not tiny. -/
theorem nearest_dist_of_one_le (hden : 0 < den) (hone : (1 : ℚ) ≤ num / den) :
    |(nearest negative num den).size - num / den| ≤ num / den / 2 ^ 53 := by
  have hnum : 0 < num := by
    rcases Nat.eq_zero_or_pos num with rfl | hpos
    · norm_num at hone
    · exact hpos
  refine (nearest_dist negative num hden).trans ?_
  rw [le_div_iff₀ (by positivity), ← zpow_natCast (2 : ℚ) 53, ← zpow_add₀ two_ne_zero,
    Nat.cast_ofNat, show exponentFor num den - 1 + 53 = exponentFor num den + 52 by ring]
  rcases (exponentFor_ge num den).eq_or_lt with heq | hlt
  · rw [← heq]
    exact (zpow_le_one_of_nonpos₀ one_le_two (by norm_num)).trans hone
  · exact (exponentFor_spec hnum hden).2 hlt

theorem exponent_nearest_le (negative : Bool) (hnum : 0 < num) (hden : 0 < den)
    (hsize : (num / den : ℚ) < sizeEnd) :
    (nearest negative num den).exponent ≤ 971 := by
  have hexponent : exponentFor num den ≤ 971 := by
    by_contra hgt
    have hlow := (exponentFor_spec hnum hden).2 (by omega)
    have hpow : (2 : ℚ) ^ (1024 : ℤ) ≤ 2 ^ (exponentFor num den + 52) :=
      zpow_le_zpow_right₀ one_le_two (by omega)
    linarith [sizeEnd_lt]
  have hdist := nearest_dist negative num hden
  unfold nearest at hdist ⊢
  simp only at hdist ⊢
  split
  · next hm =>
    -- A mantissa of 54 digits at the greatest exponent stands for a quotient past the middle.
    rw [if_pos hm] at hdist
    by_contra hgt
    have he : exponentFor num den = 971 := by
      simp only at hgt
      omega
    have hlow := (abs_le.mp hdist).2
    rw [he, size, fullMantissa, show (971 : ℤ) + 1 = 2 + (970 : ℕ) by norm_num,
      show (971 : ℤ) - 1 = (970 : ℕ) by norm_num, zpow_add₀ two_ne_zero, zpow_natCast] at hlow
    rw [sizeEnd] at hsize
    push_cast at hlow
    have hpos : (0 : ℚ) < 2 ^ 970 := by positivity
    generalize (2 : ℚ) ^ 970 = p at *
    norm_num at hlow hsize
    linarith
  · exact hexponent

/-- A quotient that is not too large is rounded to a number at most twice as large, and to one within
a 2^53rd of it if it is at least one. -/
theorem exists_ofRatio? (negative : Bool) (num : ℕ) (hden : 0 < den)
    (hsize : (num / den : ℚ) < sizeEnd) :
    ∃ x, ofRatio? negative num den = some x ∧ x.size ≤ 2 * (num / den) ∧
      ((1 : ℚ) ≤ num / den → |x.size - num / den| ≤ num / den / 2 ^ 53) := by
  rcases Nat.eq_zero_or_pos num with rfl | hnum
  · refine ⟨⟨negative, 0, -1074⟩, rfl, ?_, ?_⟩
    · simp [size]
    · intro hone
      norm_num at hone
  · have hexponent := exponent_nearest_le negative hnum hden hsize
    refine ⟨nearest negative num den, ?_, nearest_le hden, nearest_dist_of_one_le hden⟩
    rw [ofRatio?_eq hnum, if_neg (by omega)]

/-- The same for a quotient with a power of two. -/
theorem exists_ofScaled? (negative : Bool) (hden : 0 < den) {e : ℤ}
    (hsize : (num / den : ℚ) * 2 ^ e < sizeEnd) :
    ∃ x, ofScaled? negative num den e = some x ∧ x.size ≤ 2 * (num / den * 2 ^ e) := by
  have hratio : ((num * Nat.pow 2 e.toNat : ℕ) : ℚ) / (den * Nat.pow 2 (-e).toNat : ℕ) =
      num / den * 2 ^ e := by
    rw [two_zpow_eq]
    simp only [Nat.pow_eq, Nat.cast_mul, Nat.cast_pow, Nat.cast_ofNat]
    rw [mul_div_mul_comm]
  obtain ⟨x, hx, hle, _⟩ := exists_ofRatio? negative _
    (Nat.mul_pos hden (Nat.pow_pos (by decide) : 0 < Nat.pow 2 (-e).toNat)) (hratio ▸ hsize)
  exact ⟨x, hx, hratio ▸ hle⟩

end

variable {x y : Binary64}

theorem exists_times? (hsize : x.size * y.size < sizeEnd) : ∃ z, x.times? y = some z := by
  have hproduct : ((x.mantissa * y.mantissa : ℕ) : ℚ) / (1 : ℕ) * 2 ^ (x.exponent + y.exponent) =
      x.size * y.size := by
    rw [zpow_add₀ two_ne_zero, size, size]
    push_cast
    ring
  obtain ⟨z, hz, _⟩ := exists_ofScaled? x.negative Nat.one_pos (hproduct ▸ hsize)
  exact ⟨z, hz⟩

theorem exists_dividedBy? (hy : 0 < y.size) (hsize : x.size / y.size < sizeEnd) :
    ∃ z, x.dividedBy? y = some z ∧ z.size ≤ 2 * (x.size / y.size) := by
  have hquotient : (x.mantissa / y.mantissa : ℚ) * 2 ^ (x.exponent - y.exponent) =
      x.size / y.size := by
    rw [zpow_sub₀ two_ne_zero, size, size, mul_div_mul_comm]
  have hmantissa : 0 < y.mantissa := by
    rw [Nat.pos_iff_ne_zero]
    intro hzero
    simp [size, hzero] at hy
  obtain ⟨z, hz, hle⟩ := exists_ofScaled? x.negative hmantissa (hquotient ▸ hsize)
  exact ⟨z, hz, hquotient ▸ hle⟩

/-- The powers of ten that are no larger than any number. -/
theorem exists_powerOfTen? {n : ℕ} (hn : n ≤ 308) :
    ∃ p, powerOfTen? n = some p ∧ |p.size - 10 ^ n| ≤ 10 ^ n / 2 ^ 53 := by
  have hratio : ((Nat.pow 10 n : ℕ) : ℚ) / (1 : ℕ) = 10 ^ n := by simp
  have hgreatest : (10 : ℚ) ^ 308 < sizeEnd := by
    have hnat : 10 ^ 308 < 18014398509481983 * 2 ^ 970 := by decide +kernel
    have hcast := (Nat.cast_lt (α := ℚ)).mpr hnat
    rw [Nat.cast_mul, Nat.cast_pow, Nat.cast_pow] at hcast
    rw [sizeEnd, show (2 : ℚ) ^ 54 - 1 = (18014398509481983 : ℕ) by norm_num]
    exact hcast
  obtain ⟨p, hp, _, hdist⟩ := exists_ofRatio? false (Nat.pow 10 n) Nat.one_pos (by
    rw [hratio]
    exact (pow_le_pow_right₀ (by norm_num) hn).trans_lt hgreatest)
  rw [hratio] at hdist
  exact ⟨p, hp, hdist (one_le_pow₀ (by norm_num))⟩

/-- Dividing by a power of ten makes a number smaller, up to what rounding adds. -/
theorem exists_overTen? {n : ℕ} (hn : n ≤ 308) (hx : 2 * x.size < sizeEnd) :
    ∃ y, x.overTen? n = some y ∧ (1 ≤ n → y.size ≤ x.size) := by
  obtain ⟨p, hp, hdist⟩ := exists_powerOfTen? hn
  have hpow : (1 : ℚ) ≤ 10 ^ n := one_le_pow₀ (by norm_num)
  have hhalf : (10 : ℚ) ^ n / 2 ≤ p.size := by
    have hlow := (abs_le.mp hdist).1
    linarith
  have hquotient : x.size / p.size ≤ 2 * x.size / 10 ^ n := by
    calc x.size / p.size
        ≤ x.size / (10 ^ n / 2) := div_le_div_of_nonneg_left x.size_nonneg (by positivity) hhalf
      _ = 2 * x.size / 10 ^ n := by field_simp
  have hsmaller : 2 * x.size / 10 ^ n ≤ 2 * x.size :=
    div_le_self (by linarith [x.size_nonneg]) hpow
  obtain ⟨y, hy, hle⟩ := exists_dividedBy? (x := x) (y := p) (by linarith) (by linarith)
  refine ⟨y, by rw [overTen?, hp, Option.bind_some, hy], fun hn => ?_⟩
  have hten : (4 : ℚ) ≤ 10 ^ n :=
    le_trans (by norm_num) (pow_le_pow_right₀ (by norm_num : (1 : ℚ) ≤ 10) hn)
  calc y.size ≤ 2 * (2 * x.size / 10 ^ n) := by linarith
    _ = 4 * x.size / 10 ^ n := by ring
    _ ≤ x.size := by
      rw [div_le_iff₀ (by positivity), mul_comm]
      exact mul_le_mul_of_nonneg_left hten x.size_nonneg

-- The power of ten in it is not to be computed when the equation is checked.
attribute [local irreducible] overTen? in
theorem scaleDown?_succ (steps : ℕ) (x : Binary64) (n : ℕ) :
    scaleDown? (steps + 1) x n =
      if n ≤ 308 then x.overTen? n
      else if x.isZero then some x
      else match x.overTen? 308 with
        | some y => scaleDown? steps y (n - 308)
        | none => none :=
  rfl

/-- Every division makes a number smaller, so none of them overflows. -/
theorem exists_scaleDown? {steps n : ℕ} (hn : n ≤ 308 * (steps + 1)) (hx : 2 * x.size < sizeEnd) :
    ∃ y, scaleDown? steps x n = some y := by
  induction steps generalizing x n with
  | zero =>
      obtain ⟨y, hy, _⟩ := exists_overTen? hn hx
      change ∃ y, (if x.isZero then some x else x.overTen? n) = some y
      split
      · exact ⟨x, rfl⟩
      · exact ⟨y, hy⟩
  | succ steps ih =>
      rw [scaleDown?_succ]
      split
      · next hsmall =>
        obtain ⟨y, hy, _⟩ := exists_overTen? hsmall hx
        exact ⟨y, hy⟩
      · split
        · exact ⟨x, rfl⟩
        · obtain ⟨y, hy, hle⟩ := exists_overTen? le_rfl hx
          have hsmaller := hle (by decide)
          rw [hy]
          exact ih (by omega) (by linarith)

/-- The digits and the power of ten are each made larger by a 2^53rd at most. -/
theorem size_mul_size_le {y : Binary64} {digits n : ℕ} (hle : x.size ≤ 2 * digits)
    (hdist : 1 ≤ (digits : ℚ) → |x.size - digits| ≤ digits / 2 ^ 53)
    (hpower : |y.size - 10 ^ n| ≤ 10 ^ n / 2 ^ 53) :
    x.size * y.size ≤ digits * 10 ^ n * (1 + 1 / 2 ^ 53) ^ 2 := by
  have hx : x.size ≤ digits * (1 + 1 / 2 ^ 53) := by
    rcases Nat.eq_zero_or_pos digits with rfl | hpos
    · simpa using hle
    · have hhigh := (abs_le.mp (hdist (by exact_mod_cast hpos))).2
      linarith
  have hy : y.size ≤ 10 ^ n * (1 + 1 / 2 ^ 53) := by
    have hhigh := (abs_le.mp hpower).2
    linarith
  calc x.size * y.size
      ≤ digits * (1 + 1 / 2 ^ 53) * (10 ^ n * (1 + 1 / 2 ^ 53)) :=
        mul_le_mul hx hy y.size_nonneg (by positivity)
    _ = digits * 10 ^ n * (1 + 1 / 2 ^ 53) ^ 2 := by ring

/-- A decimal that is not zero is no smaller than its power of ten. -/
theorem exponent_le_of_lt_sizeEnd {digits n : ℕ} (hpos : 0 < digits)
    (hsize : digits * (10 : ℚ) ^ n * (1 + 1 / 2 ^ 53) ^ 2 < sizeEnd) : n ≤ 308 := by
  by_contra hlarge
  have hnat : 2 ^ 1024 < 10 ^ 309 := by decide +kernel
  have hcast := (Nat.cast_lt (α := ℚ)).mpr hnat
  rw [Nat.cast_pow, Nat.cast_pow] at hcast
  have hpow : (10 : ℚ) ^ 309 ≤ 10 ^ n := pow_le_pow_right₀ (by norm_num) (by omega)
  have hone : (1 : ℚ) ≤ digits := by exact_mod_cast hpos
  have hfactor : (1 : ℚ) ≤ (1 + 1 / 2 ^ 53) ^ 2 := one_le_pow₀ (by norm_num)
  have hgrown : (10 : ℚ) ^ n ≤ digits * 10 ^ n * (1 + 1 / 2 ^ 53) ^ 2 := by
    calc (10 : ℚ) ^ n ≤ digits * 10 ^ n := le_mul_of_one_le_left (by positivity) hone
      _ ≤ _ := le_mul_of_one_le_right (by positivity) hfactor
  have hend := sizeEnd_lt
  rw [show (1024 : ℤ) = (1024 : ℕ) by norm_num, zpow_natCast] at hend
  exact absurd (hcast.trans_le (hpow.trans (hgrown.trans (hsize.trans hend).le))) (lt_irrefl _)

/-- A decimal is read if its digits fit into a word and it stays a little below the numbers that are
too large: rounding the digits and the power of ten makes it larger by two 2^53rds at most. -/
theorem exists_ofDecimal? (negative : Bool) {digits : ℕ} {exponent : ℤ} (hdigits : digits < 2 ^ 64)
    (hexponent : -1232 ≤ exponent)
    (hsize : digits * (10 : ℚ) ^ exponent * (1 + 1 / 2 ^ 53) ^ 2 < sizeEnd) :
    ∃ x, ofDecimal? negative digits exponent = some x := by
  have hword : (digits : ℚ) < 2 ^ 64 := by exact_mod_cast hdigits
  have hlarge : (2 : ℚ) ^ 66 < sizeEnd := by
    have hpow : (1 : ℚ) ≤ 2 ^ 904 := one_le_pow₀ (by norm_num)
    rw [sizeEnd, show 970 = 66 + 904 by norm_num, pow_add]
    generalize (2 : ℚ) ^ 904 = p at hpow
    linarith
  have hratio : (digits : ℚ) / (1 : ℕ) = digits := by simp
  obtain ⟨x, hx, hle, hdist⟩ := exists_ofRatio? negative digits Nat.one_pos
    (by rw [hratio]; linarith)
  rw [hratio] at hle hdist
  unfold ofDecimal?
  simp only [hx]
  split
  · exact exists_scaleDown? (by omega) (by linarith)
  · next hpositive =>
    obtain ⟨n, rfl⟩ : ∃ n : ℕ, exponent = n := ⟨exponent.toNat, by omega⟩
    rw [zpow_natCast] at hsize
    rw [Int.toNat_natCast]
    split
    · next hn =>
      obtain ⟨p, hp, hpower⟩ := exists_powerOfTen? hn
      obtain ⟨z, hz⟩ := exists_times? ((size_mul_size_le hle hdist hpower).trans_lt hsize)
      exact ⟨z, by rw [timesTen?, hp, Option.bind_some, hz]⟩
    · next hn =>
      -- Nothing but zero is read with such an exponent, but then nothing else is so small.
      rcases Nat.eq_zero_or_pos digits with rfl | hpos
      · cases hx
        exact ⟨_, rfl⟩
      · exact absurd (exponent_le_of_lt_sizeEnd hpos hsize) hn

end BuildHooks.Binary64
