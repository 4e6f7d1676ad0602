import Mathlib.Data.Nat.Cast.Order.Field
import BuildHooks.Decimal.Shortest
import BuildHooks.Proofs.Decimal.Rounding

/-! The shortest decimal of a number is read. It is never zero, it lies at most half a unit in the last
place above the number, and its exponent is in the range that the reader scales by. Half a unit less than
the middle above the largest number leaves room for what reading adds, except with the two largest
numbers, whose decimals are read by computation. -/

namespace BuildHooks.Binary64

/-- The numbers that 64 bits hold: 53 binary digits, or fewer at the least exponent. -/
structure Proper (x : Binary64) : Prop where
  mantissa : x.mantissa < 2 * fullMantissa
  least : -1074 ≤ x.exponent
  greatest : x.exponent ≤ 971

/-- The number that a decimal stands for. -/
def Decimal.size (d : Decimal) : ℚ :=
  d.digits * (10 : ℚ) ^ d.exponent

namespace Neighbourhood

variable {n : Neighbourhood} {d : ℕ}

theorem bounds_of_holds (h : n.holds d = true) :
    n.low ≤ d * n.denominator ∧ d * n.denominator ≤ n.high := by
  unfold holds at h
  simp only at h
  split at h
  · simpa using h
  · simp only [Bool.and_eq_true, decide_eq_true_eq] at h
    exact ⟨h.1.le, h.2.le⟩

/-- The grid point that is taken is read back as the number. -/
theorem holds_of_best? (h : n.best? = some d) : n.holds d = true := by
  unfold best? at h
  simp only at h
  split at h
  · next hbelow habove =>
    cases h
    split
    · exact hbelow
    · split
      · exact habove
      · rcases Nat.mod_two_eq_zero_or_one (n.value / n.denominator) with heven | hodd
        · rwa [heven]
        · rwa [hodd]
  · next hbelow _ =>
    cases h
    exact hbelow
  · next habove =>
    cases h
    exact habove
  · cases h

end Neighbourhood

variable {x : Binary64}

/-- What the neighbourhood counts in quarters of a unit in the last place, on the grid of `10 ^ j`. -/
theorem neighbourhood_ratio (x : Binary64) (j : ℤ) (quarters : ℕ) :
    ((quarters * (Nat.pow 2 (x.exponent - 2).toNat * Nat.pow 10 (-j).toNat) : ℕ) : ℚ) /
      (x.neighbourhood j).denominator = quarters * 2 ^ (x.exponent - 2) / 10 ^ j := by
  have hten : (10 : ℚ) ^ j = 10 ^ j.toNat / 10 ^ (-j).toNat := by
    obtain ⟨n, rfl | rfl⟩ := j.eq_nat_or_neg <;> simp
  rw [two_zpow_eq, hten, neighbourhood]
  simp only [Nat.pow_eq, Nat.cast_mul, Nat.cast_pow, Nat.cast_ofNat]
  field_simp

theorem denominator_pos (x : Binary64) (j : ℤ) : 0 < (x.neighbourhood j).denominator :=
  Nat.mul_pos (Nat.pow_pos (by decide)) (Nat.pow_pos (by decide))

theorem quarters_eq_size (x : Binary64) : (4 * x.mantissa : ℕ) * (2 : ℚ) ^ (x.exponent - 2) = x.size := by
  rw [size, zpow_sub₀ two_ne_zero]
  push_cast
  ring

/-- The decimals that may be taken for a number: they lie no further above it than half a unit in its
last place, and none is zero. -/
theorem size_of_best? {j : ℤ} {d : ℕ} (hx : 0 < x.mantissa) (h : (x.neighbourhood j).best? = some d) :
    0 < d ∧ (⟨d, j⟩ : Decimal).size ≤ (4 * x.mantissa + 2 : ℕ) * 2 ^ (x.exponent - 2) := by
  obtain ⟨hlow, hhigh⟩ := Neighbourhood.bounds_of_holds (Neighbourhood.holds_of_best? h)
  constructor
  · have hpos : 0 < (x.neighbourhood j).low := by
      refine Nat.mul_pos (Nat.sub_pos_of_lt ?_)
        (Nat.mul_pos (Nat.pow_pos (by decide)) (Nat.pow_pos (by decide)))
      split <;> omega
    exact Nat.pos_of_mul_pos_right (hpos.trans_le hlow)
  · have hden : (0 : ℚ) < (x.neighbourhood j).denominator := by exact_mod_cast denominator_pos x j
    have hcast : (d : ℚ) * (x.neighbourhood j).denominator ≤ (x.neighbourhood j).high := by
      exact_mod_cast hhigh
    rw [← le_div_iff₀ hden] at hcast
    have hratio := neighbourhood_ratio x j (4 * x.mantissa + 2)
    rw [Decimal.size, ← le_div_iff₀ (by positivity), ← hratio]
    exact hcast

/-- Where no grid has a point that is read back, what is taken is at most the number itself, and it is
not zero if the last grid is finer than the number. -/
theorem size_of_floor (x : Binary64) (j : ℤ) :
    ((10 : ℚ) ^ j ≤ x.size → 0 < (x.neighbourhood j).value / (x.neighbourhood j).denominator) ∧
      (⟨(x.neighbourhood j).value / (x.neighbourhood j).denominator, j⟩ : Decimal).size ≤ x.size := by
  have hden : (0 : ℚ) < (x.neighbourhood j).denominator := by exact_mod_cast denominator_pos x j
  have hratio := neighbourhood_ratio x j (4 * x.mantissa)
  rw [quarters_eq_size] at hratio
  change ((x.neighbourhood j).value : ℚ) / _ = _ at hratio
  constructor
  · intro hfine
    refine Nat.div_pos ?_ (denominator_pos x j)
    have hone : (1 : ℚ) ≤ x.size / 10 ^ j := (one_le_div₀ (by positivity)).mpr hfine
    rw [← hratio, one_le_div₀ hden] at hone
    exact_mod_cast hone
  · rw [Decimal.size, ← le_div_iff₀ (by positivity), ← hratio]
    exact Nat.cast_div_le

/-- What the search over the grids comes to. -/
theorem shortestFrom_spec (hx : 0 < x.mantissa) (grids : ℕ) (j : ℤ) :
    j - grids ≤ (x.shortestFrom grids j).exponent ∧
      (x.shortestFrom grids j).size ≤ (4 * x.mantissa + 2 : ℕ) * 2 ^ (x.exponent - 2) ∧
      ((10 : ℚ) ^ (j - grids) ≤ x.size → 0 < (x.shortestFrom grids j).digits) := by
  induction grids generalizing j with
  | zero =>
      obtain ⟨hpos, hle⟩ := size_of_floor x j
      refine ⟨by simp [shortestFrom], hle.trans ?_, by simpa [shortestFrom] using hpos⟩
      rw [← quarters_eq_size]
      exact mul_le_mul_of_nonneg_right (by exact_mod_cast Nat.le_add_right _ _) (by positivity)
  | succ grids ih =>
      unfold shortestFrom
      split
      · next d hbest =>
        obtain ⟨hpos, hle⟩ := size_of_best? hx hbest
        exact ⟨by simp only; omega, hle, fun _ => hpos⟩
      · have hstep : j - (grids + 1 : ℕ) = j - 1 - grids := by omega
        rw [hstep]
        exact ih (j - 1)

/-- The twentieth grid is finer than the number, as three decimal digits hold less than ten binary ones
and four of them more than thirteen. -/
theorem ten_zpow_le_two_zpow (magnitude : ℤ) (hlow : -1074 ≤ magnitude) (hhigh : magnitude ≤ 1023) :
    (10 : ℚ) ^ (magnitude * 30103 / 100000 + 1 - 20) ≤ 2 ^ magnitude := by
  obtain ⟨s, hs⟩ : ∃ s : ℤ, s = magnitude * 30103 / 100000 + 1 - 20 := ⟨_, rfl⟩
  rw [← hs]
  rcases le_or_gt 0 s with hpos | hneg
  · refine le_of_pow_le_pow_left₀ (by norm_num : 3 ≠ 0) (by positivity) ?_
    calc ((10 : ℚ) ^ s) ^ 3 = (10 ^ 3) ^ s := by
          rw [← zpow_natCast, ← zpow_natCast, ← zpow_mul, ← zpow_mul, mul_comm]
      _ ≤ (2 ^ 10) ^ s := zpow_le_zpow_left₀ hpos (by norm_num) (by norm_num)
      _ = 2 ^ (10 * s) := by rw [← zpow_natCast, ← zpow_mul]; norm_num
      _ ≤ 2 ^ (magnitude * 3) := zpow_le_zpow_right₀ one_le_two (by omega)
      _ = ((2 : ℚ) ^ magnitude) ^ 3 := by rw [← zpow_natCast, ← zpow_mul]; norm_num
  · rcases le_or_gt 0 magnitude with hmagnitude | hmagnitude
    · exact (zpow_le_one_of_nonpos₀ (by norm_num) hneg.le).trans (one_le_zpow₀ one_le_two hmagnitude)
    · refine le_of_pow_le_pow_left₀ (by norm_num : 13 ≠ 0) (by positivity) ?_
      calc ((10 : ℚ) ^ s) ^ 13 = 10 ^ (s * 13) := by rw [← zpow_natCast, ← zpow_mul]; norm_num
        _ ≤ 10 ^ (4 * magnitude) := zpow_le_zpow_right₀ (by norm_num) (by omega)
        _ = (10 ^ 4) ^ magnitude := by rw [← zpow_natCast, ← zpow_mul]; norm_num
        _ ≤ (2 ^ 13) ^ magnitude := by
          rw [← inv_le_inv₀ (by positivity) (by positivity), ← zpow_neg, ← zpow_neg]
          exact zpow_le_zpow_left₀ (by omega) (by norm_num) (by norm_num)
        _ = ((2 : ℚ) ^ magnitude) ^ 13 := by
          rw [← zpow_natCast, ← zpow_natCast, ← zpow_mul, ← zpow_mul, mul_comm]

theorem shortest_spec (hproper : x.Proper) (hx : 0 < x.mantissa) :
    0 < x.shortest.digits ∧ -345 ≤ x.shortest.exponent ∧
      x.shortest.size ≤ (4 * x.mantissa + 2 : ℕ) * 2 ^ (x.exponent - 2) := by
  obtain ⟨hmantissa, hleast, hgreatest⟩ := hproper
  have hlog : Nat.log2 x.mantissa < 53 := (Nat.log2_lt hx.ne').mpr hmantissa
  obtain ⟨magnitude, hmagnitude⟩ : ∃ m : ℤ, m = Nat.log2 x.mantissa + x.exponent := ⟨_, rfl⟩
  have hsize : (2 : ℚ) ^ magnitude ≤ x.size := by
    rw [hmagnitude, size, zpow_add₀ two_ne_zero, zpow_natCast]
    exact mul_le_mul_of_nonneg_right (by exact_mod_cast Nat.log2_self_le hx.ne') (by positivity)
  obtain ⟨hexponent, hle, hdigits⟩ :=
    shortestFrom_spec hx 20 (magnitude * 30103 / 100000 + 1)
  have hfine := ten_zpow_le_two_zpow magnitude (by omega) (by omega)
  unfold shortest
  simp only [← hmagnitude]
  exact ⟨hdigits (hfine.trans hsize), by omega, hle⟩

theorem size_shortest_le (hproper : x.Proper) (hx : 0 < x.mantissa) :
    x.shortest.size ≤ 2 ^ (1024 : ℤ) := by
  have hmantissa := hproper.mantissa
  have hgreatest := hproper.greatest
  unfold fullMantissa at hmantissa
  have hquarters : ((4 * x.mantissa + 2 : ℕ) : ℚ) ≤ 2 ^ (55 : ℤ) := by
    exact_mod_cast (by omega : 4 * x.mantissa + 2 ≤ 2 ^ 55)
  calc x.shortest.size ≤ (4 * x.mantissa + 2 : ℕ) * 2 ^ (x.exponent - 2) :=
        (shortest_spec hproper hx).2.2
    _ ≤ 2 ^ (55 : ℤ) * 2 ^ (969 : ℤ) :=
        mul_le_mul hquarters (zpow_le_zpow_right₀ one_le_two (by omega)) (by positivity)
          (by positivity)
    _ = 2 ^ (1024 : ℤ) := by rw [← zpow_add₀ two_ne_zero]; norm_num

/-- Numbers other than the two largest leave room below what is too large. -/
theorem upper_lt_sizeEnd (hproper : x.Proper)
    (hroom : x.exponent ≤ 970 ∨ x.mantissa + 2 < 2 * fullMantissa) :
    (4 * x.mantissa + 2 : ℕ) * (2 : ℚ) ^ (x.exponent - 2) * (1 + 1 / 2 ^ 53) ^ 2 < sizeEnd := by
  have hsplit : sizeEnd = (2 ^ 54 - 1) * (4 * 2 ^ (968 : ℤ)) := by
    rw [sizeEnd, show 970 = 2 + 968 by norm_num, pow_add, show (968 : ℤ) = (968 : ℕ) by norm_num,
      zpow_natCast]
    norm_num
  have hunit : (0 : ℚ) < 2 ^ (968 : ℤ) := by positivity
  have hmantissa := hproper.mantissa
  unfold fullMantissa at hmantissa hroom
  rw [hsplit]
  rcases hroom with hexponent | hlast
  · have hpow : (2 : ℚ) ^ (x.exponent - 2) ≤ 2 ^ (968 : ℤ) :=
      zpow_le_zpow_right₀ one_le_two (by omega)
    have hquarters : ((4 * x.mantissa + 2 : ℕ) : ℚ) ≤ (2 ^ 55 - 2 : ℕ) := by
      exact_mod_cast (by omega : 4 * x.mantissa + 2 ≤ 2 ^ 55 - 2)
    have hproduct := mul_le_mul hquarters hpow (by positivity) (by positivity)
    generalize (2 : ℚ) ^ (968 : ℤ) = unit at *
    norm_num at hproduct ⊢
    linarith
  · have hpow : (2 : ℚ) ^ (x.exponent - 2) ≤ 2 * 2 ^ (968 : ℤ) := by
      have hle : (2 : ℚ) ^ (x.exponent - 2) ≤ 2 ^ ((968 : ℤ) + 1) :=
        zpow_le_zpow_right₀ one_le_two (by have := hproper.greatest; omega)
      rwa [zpow_add_one₀ two_ne_zero, mul_comm] at hle
    have hquarters : ((4 * x.mantissa + 2 : ℕ) : ℚ) ≤ (2 ^ 55 - 10 : ℕ) := by
      exact_mod_cast (by omega : 4 * x.mantissa + 2 ≤ 2 ^ 55 - 10)
    have hproduct := mul_le_mul hquarters hpow (by positivity) (by positivity)
    generalize (2 : ℚ) ^ (968 : ℤ) = unit at *
    norm_num at hproduct ⊢
    linarith

theorem shortest_largest (negative : Bool) :
    (⟨negative, 9007199254740991, 971⟩ : Binary64).shortest = ⟨17976931348623157, 292⟩ := by
  cases negative <;> decide +kernel

theorem shortest_nextLargest (negative : Bool) :
    (⟨negative, 9007199254740990, 971⟩ : Binary64).shortest = ⟨17976931348623155, 292⟩ := by
  cases negative <;> decide +kernel

/-- Digits that stand for at most the shortest decimal of a number are read, be it as another number.
Of a large number they are all its digits, if a word holds those. -/
theorem exists_ofDecimal?_shortest (hproper : x.Proper) (hx : 0 < x.mantissa) (negative : Bool)
    {digits : ℕ} {exponent : ℤ} (hdigits : digits < 2 ^ 64) (hexponent : -1232 ≤ exponent)
    (hsize : (⟨digits, exponent⟩ : Decimal).size ≤ x.shortest.size)
    (hwhole : 16 ≤ x.shortest.exponent → x.shortest.digits < 2 ^ 64 →
      (⟨digits, exponent⟩ : Decimal) = x.shortest) :
    ∃ y, ofDecimal? negative digits exponent = some y := by
  by_cases hroom : x.exponent ≤ 970 ∨ x.mantissa + 2 < 2 * fullMantissa
  · refine exists_ofDecimal? negative hdigits hexponent
      (lt_of_le_of_lt ?_ (upper_lt_sizeEnd hproper hroom))
    exact mul_le_mul_of_nonneg_right (hsize.trans (shortest_spec hproper hx).2.2) (by positivity)
  · obtain ⟨xnegative, mantissa, e⟩ := x
    obtain ⟨hmantissa, _, hgreatest⟩ := hproper
    simp only [fullMantissa, not_or, not_le, not_lt] at hroom hmantissa hgreatest
    obtain rfl : e = 971 := by omega
    rcases (by omega : mantissa = 9007199254740991 ∨ mantissa = 9007199254740990) with rfl | rfl
    · rw [shortest_largest] at hwhole
      cases hwhole (by decide) (by decide)
      exact Option.isSome_iff_exists.mp (by cases negative <;> decide +kernel)
    · rw [shortest_nextLargest] at hwhole
      cases hwhole (by decide) (by decide)
      exact Option.isSome_iff_exists.mp (by cases negative <;> decide +kernel)

end BuildHooks.Binary64
