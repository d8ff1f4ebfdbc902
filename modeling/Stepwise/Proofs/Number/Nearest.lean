/-
  Stepwise/Proofs/Number/Nearest.lean
  ===================================
  **Two roundings between a decimal and its nanoseconds.**

  The number of the binary format for a decimal depends on nothing but the value
  (`magnitude?_eq`): also the decimals that are too small for a quotient to be formed would be
  rounded to zero.  So the order of values is kept by both roundings (`ofDecimal?_mono`).  Below
  2^22 seconds the format holds numbers closer to each other than 2^-31 seconds, and what the first
  rounding takes away is less than half a nanosecond: the second one finds back every whole number
  of nanoseconds (`ofDecimal?_exact`).
-/
import Stepwise.Duration
import Stepwise.Proofs.Number.Rounding
import Stepwise.Proofs.Number.Spelling
import Mathlib.Algebra.Order.Ring.Rat
import Mathlib.Tactic.NormNum
import Mathlib.Tactic.Positivity

namespace Stepwise

variable {num den num' den' n : Nat}

/-! ### Quotients -/

namespace Binary64

theorem unit_pos : 0 < unit := by decide +kernel

/-- The number of the format depends on nothing but the quotient. -/
theorem ofRatio_congr {q : ℚ} (pos : 0 < den) (pos' : 0 < den') (same : (num : ℚ) = q * den)
    (same' : (num' : ℚ) = q * den') : ofRatio num den = ofRatio num' den' := by
  have crossed : (num : ℚ) * den' = num' * den := by
    rw [same, same']
    ring
  have crossed : num * den' = num' * den := by exact_mod_cast crossed
  have scaled : num * unit * den' = num' * unit * den := by
    rw [Nat.mul_right_comm, crossed, Nat.mul_right_comm]
  have le := ofQuanta_mono pos pos' (Nat.le_of_eq scaled)
  have ge := ofQuanta_mono pos' pos (Nat.le_of_eq scaled.symm)
  exact congrArg Binary64.mk (Nat.le_antisymm le ge)

/-- Less than half of the smallest number is rounded to zero. -/
theorem ofQuanta_eq_zero (small : 2 * num < den) : ofQuanta num den = ⟨0⟩ := by
  have below : num / den = 0 := Nat.div_eq_of_lt (by omega)
  have zero : roundDiv num (den * gap 0) = 0 := by
    have one : gap 0 = 1 := by decide
    rw [one, Nat.mul_one]
    exact roundDiv_eq_of_near (by omega) (by omega) (by omega)
  simp only [ofQuanta, below, zero, Nat.zero_mul]

theorem ofRatio_zero (pos : 0 < den) : ofRatio 0 den = ⟨0⟩ := by
  rw [ofRatio, Nat.zero_mul]
  exact ofQuanta_eq_zero pos

end Binary64

/-! ### Decimals -/

namespace Decimal

variable {d d' : Decimal} {x : Binary64}

theorem abs_value (d : Decimal) : |d.value| = d.coefficient * 10 ^ d.exponent := by
  have power : (0 : ℚ) ≤ 10 ^ d.exponent := zpow_nonneg (by norm_num) _
  have unsigned : |(factor d.negative : ℚ)| = 1 := by cases d.negative <;> simp [factor]
  rw [value, abs_mul, abs_mul, unsigned, one_mul, abs_of_nonneg power, Nat.abs_cast]

theorem size_nonneg (d : Decimal) : (0 : ℚ) ≤ d.coefficient * 10 ^ d.exponent :=
  d.abs_value ▸ abs_nonneg d.value

theorem value_nonpos (h : d.negative = true) : d.value ≤ 0 := by
  have sign : d.value = -(d.coefficient * 10 ^ d.exponent) := by simp [value, h, factor]
  rw [sign]
  exact neg_nonpos.mpr d.size_nonneg

theorem value_nonneg (h : d.negative = false) : 0 ≤ d.value := by
  have sign : d.value = d.coefficient * 10 ^ d.exponent := by simp [value, h, factor]
  rw [sign]
  exact d.size_nonneg

theorem coefficient_lt (d : Decimal) : d.coefficient < 10 ^ (Text.ofNat d.coefficient).length :=
  (Nat.length_toDigits_le_iff (by decide) Nat.length_toDigits_pos).mp (Nat.le_refl _)

theorem le_coefficient (some : d.coefficient ≠ 0) :
    10 ^ ((Text.ofNat d.coefficient).length - 1) ≤ d.coefficient := by
  rcases Nat.eq_zero_or_pos ((Text.ofNat d.coefficient).length - 1) with one | more
  · rw [one]
    exact Nat.pos_of_ne_zero some
  · have longer : ¬ (Text.ofNat d.coefficient).length ≤ (Text.ofNat d.coefficient).length - 1 := by
      omega
    exact Nat.le_of_not_lt
      (longer ∘ (Nat.length_toDigits_le_iff (n := d.coefficient) (by decide : 1 < 10) more).mpr)

/-- The order is that of the power of ten just above the value. -/
theorem abs_value_lt (d : Decimal) : |d.value| < 10 ^ d.order := by
  have power : (0 : ℚ) < 10 ^ d.exponent := zpow_pos (by norm_num) _
  have size : (d.coefficient : ℚ) < 10 ^ (Text.ofNat d.coefficient).length := by
    exact_mod_cast d.coefficient_lt
  rw [abs_value, order, zpow_add₀ (by norm_num), zpow_natCast]
  exact mul_lt_mul_of_pos_right size power

theorem le_abs_value (some : d.coefficient ≠ 0) : 10 ^ (d.order - 1) ≤ |d.value| := by
  have power : (0 : ℚ) ≤ 10 ^ d.exponent := zpow_nonneg (by norm_num) _
  have size : (10 : ℚ) ^ ((Text.ofNat d.coefficient).length - 1) ≤ d.coefficient := by
    exact_mod_cast le_coefficient some
  have shifted : d.order - 1 = ((Text.ofNat d.coefficient).length - 1 : Nat) + d.exponent := by
    have := Nat.length_toDigits_pos (b := 10) (n := d.coefficient)
    simp only [order, Text.ofNat]
    omega
  rw [abs_value, shifted, zpow_add₀ (by norm_num), zpow_natCast]
  exact mul_le_mul_of_nonneg_right size power

/-! ### The nearest number of the format -/

theorem cast_powTen (n : Nat) : (powTen n : ℚ) = 10 ^ n := Nat.cast_pow 10 n

theorem abs_value_of_whole (whole : 0 ≤ d.exponent) :
    ((d.coefficient * powTen d.exponent.toNat : Nat) : ℚ) = |d.value| * (1 : Nat) := by
  rw [abs_value, Nat.cast_mul, cast_powTen, ← zpow_natCast, Int.toNat_of_nonneg whole, Nat.cast_one,
    mul_one]

theorem abs_value_of_broken (broken : d.exponent < 0) :
    (d.coefficient : ℚ) = |d.value| * powTen (-d.exponent).toNat := by
  rw [abs_value, cast_powTen, ← zpow_natCast, Int.toNat_of_nonneg (by omega), mul_assoc,
    ← zpow_add₀ (by norm_num), add_neg_cancel, zpow_zero, mul_one]

/-- A number below a power of ten with a negative exponent, as a quotient. -/
theorem mul_pow_lt {q : ℚ} (pos : 0 < den) (same : (num : ℚ) = q * den)
    (lt : q < 10 ^ (-(n : Int))) : num * 10 ^ n < den := by
  have power : (0 : ℚ) < 10 ^ n := by positivity
  have shown : (num : ℚ) * 10 ^ n < den := by
    calc (num : ℚ) * 10 ^ n = q * (den * 10 ^ n) := by rw [same, mul_assoc]
      _ < 10 ^ (-(n : Int)) * (den * 10 ^ n) := by
        exact mul_lt_mul_of_pos_right lt (mul_pos (Nat.cast_pos.mpr pos) power)
      _ = den := by
        rw [zpow_neg, zpow_natCast]
        field_simp
  exact_mod_cast shown

theorem ofRatio_of_order_lt (small : d.order < -orderLimit) (pos : 0 < den)
    (same : (num : ℚ) = |d.value| * den) : Binary64.ofRatio num den = ⟨0⟩ := by
  have tiny : |d.value| < 10 ^ (-((400 : Nat) : Int)) := by
    refine lt_of_lt_of_le d.abs_value_lt (zpow_le_zpow_right₀ (by norm_num) ?_)
    simp only [orderLimit] at small
    omega
  have half : 2 * Binary64.unit ≤ 10 ^ 400 := by decide +kernel
  refine Binary64.ofQuanta_eq_zero ?_
  calc 2 * (num * Binary64.unit) = num * (2 * Binary64.unit) := Nat.mul_left_comm ..
    _ ≤ num * 10 ^ 400 := Nat.mul_le_mul_left num half
    _ < den := mul_pow_lt pos same tiny

/-- **The nearest number of the format depends on nothing but the value.** -/
theorem magnitude?_eq (h : d.magnitude? = some x) (pos : 0 < den)
    (same : (num : ℚ) = |d.value| * den) : x = .ofRatio num den := by
  unfold magnitude? at h
  split at h
  · rename_i zero
    cases h
    rw [abs_value, zero, Nat.cast_zero, zero_mul, zero_mul, Nat.cast_eq_zero] at same
    rw [same, Binary64.ofRatio_zero pos]
  · split at h
    · cases h
    · split at h
      · rename_i small
        cases h
        exact (ofRatio_of_order_lt small pos same).symm
      · split at h
        · rename_i whole
          cases h
          exact Binary64.ofRatio_congr Nat.one_pos pos (abs_value_of_whole whole) same
        · rename_i broken
          cases h
          have ten : 0 < powTen (-d.exponent).toNat := Nat.pow_pos (by decide)
          exact Binary64.ofRatio_congr ten pos (abs_value_of_broken (Int.not_le.mp broken)) same

/-- Only a decimal beyond the format has no nearest number in it. -/
theorem exists_magnitude (small : |d.value| < 10 ^ (400 : Int)) : ∃ x, d.magnitude? = some x := by
  by_cases zero : d.coefficient = 0
  · exact ⟨_, if_pos zero⟩
  · have within : ¬ orderLimit < d.order := by
      intro beyond
      have reaches : (10 : ℚ) ^ (400 : Int) ≤ 10 ^ (d.order - 1) := by
        refine zpow_le_zpow_right₀ (by norm_num) ?_
        simp only [orderLimit] at beyond
        omega
      exact absurd (reaches.trans (le_abs_value zero)) (not_le.mpr small)
    simp only [magnitude?, zero, within, if_false]
    split
    · exact ⟨_, rfl⟩
    · split <;> exact ⟨_, rfl⟩

theorem exists_quotient (d : Decimal) : ∃ num den : Nat, 0 < den ∧ (num : ℚ) = |d.value| * den := by
  refine ⟨|d.value|.num.natAbs, |d.value|.den, |d.value|.pos, ?_⟩
  rw [Nat.cast_natAbs, abs_of_nonneg (Rat.num_nonneg.mpr (abs_nonneg d.value)), Rat.mul_den_eq_num]

theorem magnitude?_mono {x' : Binary64} (h : d.magnitude? = some x) (h' : d'.magnitude? = some x')
    (le : |d.value| ≤ |d'.value|) : x.quanta ≤ x'.quanta := by
  obtain ⟨num, den, pos, same⟩ := d.exists_quotient
  obtain ⟨num', den', pos', same'⟩ := d'.exists_quotient
  have crossed : (num : ℚ) * den' ≤ num' * den := by
    calc (num : ℚ) * den' = |d.value| * (den * den') := by rw [same, mul_assoc]
      _ ≤ |d'.value| * (den * den') := by
        exact mul_le_mul_of_nonneg_right le (mul_nonneg (Nat.cast_nonneg _) (Nat.cast_nonneg _))
      _ = num' * den := by
        rw [same']
        ring
  have crossed : num * den' ≤ num' * den := by exact_mod_cast crossed
  rw [magnitude?_eq h pos same, magnitude?_eq h' pos' same']
  refine Binary64.ofQuanta_mono pos pos' ?_
  rw [Nat.mul_right_comm, Nat.mul_right_comm num']
  exact Nat.mul_le_mul_right _ crossed

end Decimal

/-! ### Durations -/

namespace Duration

variable {d d' : Decimal} {a b : Duration} {x : Binary64}

theorem quanta_of_small (pos : 0 < den) (lt : num < 2 ^ 22 * den) :
    num * Binary64.unit / den < 2 ^ 1096 := by
  have limit : 2 ^ 22 * Binary64.unit = 2 ^ 1096 := by decide +kernel
  rw [Nat.div_lt_iff_lt_mul pos, ← limit, Nat.mul_right_comm]
  exact Nat.mul_lt_mul_of_pos_right lt Binary64.unit_pos

/-- Numbers of seconds below 2^22 lie closer than a nanosecond. -/
theorem gap_of_small (pos : 0 < den) (lt : num < 2 ^ 22 * den) :
    perSecond * Binary64.gap (num * Binary64.unit / den) < Binary64.unit := by
  have gap : Binary64.gap (num * Binary64.unit / den) ≤ 2 ^ (1096 - Binary64.precision) :=
    Binary64.gap_le (by decide) (quanta_of_small pos lt)
  have fine : perSecond * 2 ^ (1096 - Binary64.precision) < Binary64.unit := by decide +kernel
  exact Nat.lt_of_le_of_lt (Nat.mul_le_mul_left _ gap) fine

/-- **Whole nanoseconds below 2^22 seconds are found back.** -/
theorem ofBinary64?_ofRatio (lt : n < 2 ^ 22 * perSecond) :
    ofBinary64? (.ofRatio n perSecond) = some n := by
  have pos : 0 < perSecond := by decide
  have within : (Binary64.ofRatio n perSecond).quanta < secondsLimit * Binary64.unit := by
    have limit : 2 ^ 1096 < secondsLimit * Binary64.unit := by decide +kernel
    exact Nat.lt_of_le_of_lt (Binary64.ofQuanta_le_two_pow pos (quanta_of_small pos lt)) limit
  have nearest :
      roundDiv ((Binary64.ofRatio n perSecond).quanta * perSecond) Binary64.unit = n := by
    have gap := gap_of_small pos lt
    have near := Binary64.ofQuanta_near (n * Binary64.unit) pos
    refine roundDiv_eq_of_near Binary64.unit_pos ?_ ?_ <;> simp only [Binary64.ofRatio] <;> omega
  rw [ofBinary64?, if_pos within, nearest]

/-- **A whole number of nanoseconds below 2^22 seconds is read exactly.** -/
theorem ofDecimal?_exact (same : d.value * perSecond = n) (lt : d.value < 2 ^ 22) :
    ofDecimal? d = some n := by
  have second : (0 : ℚ) < perSecond := Nat.cast_pos.mpr (by decide)
  have nonneg : 0 ≤ d.value := by
    refine nonneg_of_mul_nonneg_left ?_ second
    rw [same]
    exact Nat.cast_nonneg n
  have size : (n : ℚ) = |d.value| * perSecond := by rw [abs_of_nonneg nonneg, same]
  have small : n < 2 ^ 22 * perSecond := by
    have shown : (n : ℚ) < 2 ^ 22 * perSecond := by
      rw [← same]
      exact mul_lt_mul_of_pos_right lt second
    exact_mod_cast shown
  have size_lt : |d.value| < 2 ^ 22 := by rwa [abs_of_nonneg nonneg]
  have limit : (2 : ℚ) ^ 22 ≤ 10 ^ (400 : Int) := by
    calc (2 : ℚ) ^ 22 ≤ 10 ^ (22 : Int) := by norm_num
      _ ≤ 10 ^ (400 : Int) := zpow_le_zpow_right₀ (by norm_num) (by decide)
  obtain ⟨x, found⟩ := Decimal.exists_magnitude (size_lt.trans_le limit)
  obtain rfl := Decimal.magnitude?_eq found (by decide) size
  have signed : (d.negative && !(Binary64.ofRatio n perSecond).isZero) = false := by
    cases minus : d.negative with
    | false => rfl
    | true =>
      have zero : d.value = 0 := le_antisymm (Decimal.value_nonpos minus) nonneg
      rw [zero, abs_zero, zero_mul, Nat.cast_eq_zero] at size
      rw [size, Binary64.ofRatio_zero (by decide)]
      rfl
  simp only [ofDecimal?, found, Option.bind_some, signed, Bool.false_eq_true, if_false,
    ofBinary64?_ofRatio small]

theorem ofDecimal?_cases (h : ofDecimal? d = some a) :
    ∃ x, d.magnitude? = some x ∧ (d.negative = true → x.quanta = 0) ∧
      a = roundDiv (x.quanta * perSecond) Binary64.unit := by
  obtain ⟨x, found, h⟩ := Option.bind_eq_some_iff.mp h
  split at h
  · cases h
  · rename_i signed
    refine ⟨x, found, ?_, ?_⟩
    · intro minus
      simpa [minus, Binary64.isZero] using signed
    · unfold ofBinary64? at h
      split at h
      · exact (Option.some.inj h).symm
      · cases h

/-- **The order of values is kept.** -/
theorem ofDecimal?_mono (h : ofDecimal? d = some a) (h' : ofDecimal? d' = some b)
    (le : d.value ≤ d'.value) : a ≤ b := by
  obtain ⟨x, found, signed, nanos⟩ := ofDecimal?_cases h
  obtain ⟨x', found', -, nanos'⟩ := ofDecimal?_cases h'
  rw [nanos, nanos']
  refine roundDiv_le_roundDiv _ (Nat.mul_le_mul_right _ ?_)
  cases minus : d.negative with
  | true => exact (signed minus).symm ▸ Nat.zero_le _
  | false =>
    have nonneg := Decimal.value_nonneg minus
    refine Decimal.magnitude?_mono found found' ?_
    rwa [abs_of_nonneg nonneg, abs_of_nonneg (nonneg.trans le)]

end Duration

end Stepwise
