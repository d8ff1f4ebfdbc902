/-
  Stepwise/Proofs/Number/Rounding.lean
  ====================================
  **Rounding to nearest: how far it goes, and that it keeps the order.**

  A quotient is never further than a half from the whole number that it is rounded to
  (`roundDiv_near`), and a whole number that it is nearer to than a half is the one
  (`roundDiv_eq_of_near`).  Rounding sees nothing but the quotient, so two quotients are brought to
  one divisor before they are compared (`roundDiv_scale`), and there the order is that of the
  dividends (`roundDiv_mono`).

  Numbers of the binary format are rounded on a grid that gets coarser with the number.  Two
  quotients of quanta on the same grid are in the order of their whole numbers of grid steps; on
  different grids there is a power of two between them that lies on both (`ofQuanta_mono`).  How far
  a number of the format is from the quotient is half a step of its grid (`ofQuanta_near`), which
  below a power of two is bounded (`gap_le`).
-/
import Stepwise.Number.Binary64
import Mathlib.Algebra.Order.Ring.Nat
import Mathlib.Tactic.Ring
import Mathlib.Tactic.SplitIfs

namespace Stepwise

variable {num den num' den' n k : Nat}

/-! ### The nearest whole number -/

theorem roundDiv_cases (num den : Nat) :
    (roundDiv num den = num / den ∧ 2 * (num % den) ≤ den) ∨
      (roundDiv num den = num / den + 1 ∧ den ≤ 2 * (num % den)) := by
  simp only [roundDiv]
  split
  · exact .inl ⟨rfl, by omega⟩
  · split
    · exact .inr ⟨rfl, by omega⟩
    · split
      · exact .inl ⟨rfl, by omega⟩
      · exact .inr ⟨rfl, by omega⟩

/-- What is rounded away is at most a half. -/
theorem roundDiv_near (num : Nat) (pos : 0 < den) :
    2 * (roundDiv num den * den) ≤ 2 * num + den ∧
      2 * num ≤ 2 * (roundDiv num den * den) + den := by
  have parts : num / den * den + num % den = num := Nat.div_add_mod' num den
  have inside : num % den < den := Nat.mod_lt num pos
  rcases roundDiv_cases num den with ⟨down, rest⟩ | ⟨up, rest⟩
  · rw [down]
    omega
  · rw [up, Nat.add_one_mul (num / den) den]
    omega

/-- Two whole numbers cannot both be nearer than a half. -/
theorem roundDiv_eq_of_near (pos : 0 < den) (above : 2 * num < 2 * (n * den) + den)
    (below : 2 * (n * den) < 2 * num + den) : roundDiv num den = n := by
  obtain ⟨near, near'⟩ := roundDiv_near num pos
  rcases Nat.lt_trichotomy (roundDiv num den) n with less | same | more
  · have apart : (roundDiv num den + 1) * den ≤ n * den := Nat.mul_le_mul_right den less
    rw [Nat.succ_mul] at apart
    omega
  · exact same
  · have apart : (n + 1) * den ≤ roundDiv num den * den := Nat.mul_le_mul_right den more
    rw [Nat.succ_mul] at apart
    omega

theorem roundDiv_mul (pos : 0 < den) (n : Nat) : roundDiv (n * den) den = n :=
  roundDiv_eq_of_near pos (by omega) (by omega)

/-- Rounding sees nothing but the quotient. -/
theorem roundDiv_scale (num den : Nat) (pos : 0 < k) :
    roundDiv (num * k) (den * k) = roundDiv num den := by
  have twice : 2 * (num % den * k) = 2 * (num % den) * k := by rw [Nat.mul_assoc]
  simp only [roundDiv, Nat.mul_div_mul_right _ _ pos, Nat.mul_mod_mul_right, twice,
    Nat.mul_lt_mul_right pos]

theorem roundDiv_le_roundDiv (den : Nat) (le : num ≤ num') :
    roundDiv num den ≤ roundDiv num' den := by
  rcases Nat.eq_or_lt_of_le (Nat.div_le_div_right (c := den) le) with same | less
  · -- in one interval between whole numbers only the remainders matter
    have rest : num % den ≤ num' % den := by
      have parts := Nat.div_add_mod num den
      have parts' := Nat.div_add_mod num' den
      rw [same] at parts
      omega
    simp only [roundDiv, same]
    split_ifs <;> omega
  · rcases roundDiv_cases num den with ⟨down, -⟩ | ⟨up, -⟩
    · rcases roundDiv_cases num' den with ⟨down', -⟩ | ⟨up', -⟩ <;> omega
    · rcases roundDiv_cases num' den with ⟨down', -⟩ | ⟨up', -⟩ <;> omega

/-- **Rounding keeps the order of quotients.** -/
theorem roundDiv_mono (pos : 0 < den) (pos' : 0 < den') (le : num * den' ≤ num' * den) :
    roundDiv num den ≤ roundDiv num' den' := by
  rw [← roundDiv_scale num den pos', ← roundDiv_scale num' den' pos, Nat.mul_comm den' den]
  exact roundDiv_le_roundDiv _ le

theorem le_roundDiv (pos : 0 < den) (le : n * den ≤ num) : n ≤ roundDiv num den := by
  calc n = roundDiv (n * den) den := (roundDiv_mul pos n).symm
    _ ≤ roundDiv num den := roundDiv_le_roundDiv den le

theorem roundDiv_le (pos : 0 < den) (le : num ≤ n * den) : roundDiv num den ≤ n := by
  calc roundDiv num den ≤ roundDiv (n * den) den := roundDiv_le_roundDiv den le
    _ = n := roundDiv_mul pos n

/-! ### The nearest number of the format -/

namespace Binary64

theorem gap_pos (quanta : Nat) : 0 < gap quanta := Nat.two_pow_pos _

theorem gap_le {quanta : Nat} (le : precision ≤ k) (lt : quanta < 2 ^ k) :
    gap quanta ≤ 2 ^ (k - precision) := by
  have bits : quanta.log2 + 1 ≤ k := by
    rcases Nat.eq_zero_or_pos quanta with rfl | pos
    · exact Nat.le_trans (by decide) le
    · exact (Nat.log2_lt pos.ne').mpr lt
  exact Nat.pow_le_pow_right Nat.two_pos (Nat.sub_le_sub_right bits precision)

/-- What is rounded away is at most half a step of the grid. -/
theorem ofQuanta_near (num : Nat) (pos : 0 < den) :
    2 * ((ofQuanta num den).quanta * den) ≤ 2 * num + den * gap (num / den) ∧
      2 * num ≤ 2 * ((ofQuanta num den).quanta * den) + den * gap (num / den) := by
  have near := roundDiv_near num (Nat.mul_pos pos (gap_pos (num / den)))
  have same : (ofQuanta num den).quanta * den =
      roundDiv num (den * gap (num / den)) * (den * gap (num / den)) := by
    simp only [ofQuanta]
    ring
  rwa [same]

theorem excessBits_le_log2 (quanta : Nat) : excessBits quanta ≤ quanta.log2 :=
  Nat.sub_le_of_le_add (Nat.add_le_add_left (by decide) _)

/-- A power of two that is not above the quotient is not above its rounding. -/
theorem two_pow_le_ofQuanta (pos : 0 < den) (le : 2 ^ k ≤ num / den) :
    2 ^ k ≤ (ofQuanta num den).quanta := by
  -- the power may lie between steps of the grid, but then the first step is no larger
  let n := max k (excessBits (num / den))
  have some : num / den ≠ 0 := by
    have := Nat.two_pow_pos k
    omega
  have within : n ≤ (num / den).log2 :=
    Nat.max_le.mpr ⟨(Nat.le_log2 some).mpr le, excessBits_le_log2 _⟩
  have split : 2 ^ (n - excessBits (num / den)) * gap (num / den) = 2 ^ n :=
    Nat.pow_sub_mul_pow 2 (Nat.le_max_right _ _)
  have below : 2 ^ n * den ≤ num :=
    (Nat.le_div_iff_mul_le pos).mp ((Nat.le_log2 some).mp within)
  have steps : 2 ^ (n - excessBits (num / den)) ≤ roundDiv num (den * gap (num / den)) := by
    refine le_roundDiv (Nat.mul_pos pos (gap_pos _)) ?_
    rwa [Nat.mul_left_comm, split, Nat.mul_comm]
  calc 2 ^ k ≤ 2 ^ n := Nat.pow_le_pow_right Nat.two_pos (Nat.le_max_left _ _)
    _ = 2 ^ (n - excessBits (num / den)) * gap (num / den) := split.symm
    _ ≤ roundDiv num (den * gap (num / den)) * gap (num / den) := Nat.mul_le_mul_right _ steps

/-- A power of two that is above the whole part of the quotient is not below its rounding. -/
theorem ofQuanta_le_two_pow (pos : 0 < den) (lt : num / den < 2 ^ k) :
    (ofQuanta num den).quanta ≤ 2 ^ k := by
  have within : excessBits (num / den) ≤ k := by
    rcases Nat.eq_zero_or_pos (num / den) with zero | some
    · rw [zero]
      exact Nat.zero_le k
    · exact Nat.le_trans (excessBits_le_log2 _) (Nat.le_of_lt ((Nat.log2_lt some.ne').mpr lt))
  have split : 2 ^ (k - excessBits (num / den)) * gap (num / den) = 2 ^ k :=
    Nat.pow_sub_mul_pow 2 within
  have above : num ≤ 2 ^ k * den := Nat.le_of_lt ((Nat.div_lt_iff_lt_mul pos).mp lt)
  have steps : roundDiv num (den * gap (num / den)) ≤ 2 ^ (k - excessBits (num / den)) := by
    refine roundDiv_le (Nat.mul_pos pos (gap_pos _)) ?_
    rwa [Nat.mul_left_comm, split, Nat.mul_comm]
  calc roundDiv num (den * gap (num / den)) * gap (num / den)
      ≤ 2 ^ (k - excessBits (num / den)) * gap (num / den) := Nat.mul_le_mul_right _ steps
    _ = 2 ^ k := split

theorem div_le_div_of_mul_le (pos : 0 < den) (pos' : 0 < den') (le : num * den' ≤ num' * den) :
    num / den ≤ num' / den' := by
  refine (Nat.le_div_iff_mul_le pos').mpr (Nat.le_of_mul_le_mul_right ?_ pos)
  calc num / den * den' * den = num / den * den * den' := Nat.mul_right_comm _ _ _
    _ ≤ num * den' := Nat.mul_le_mul_right den' (Nat.div_mul_le_self num den)
    _ ≤ num' * den := le

/-- **Rounding to the format keeps the order of quotients.** -/
theorem ofQuanta_mono (pos : 0 < den) (pos' : 0 < den') (le : num * den' ≤ num' * den) :
    (ofQuanta num den).quanta ≤ (ofQuanta num' den').quanta := by
  have whole : num / den ≤ num' / den' := div_le_div_of_mul_le pos pos' le
  by_cases same : (num / den).log2 = (num' / den').log2
  · have grid : gap (num' / den') = gap (num / den) := by simp only [gap, excessBits, same]
    simp only [ofQuanta, grid]
    refine Nat.mul_le_mul_right _ ?_
    refine roundDiv_mono (Nat.mul_pos pos (gap_pos _)) (Nat.mul_pos pos' (gap_pos _)) ?_
    calc num * (den' * gap (num / den)) = num * den' * gap (num / den) := (Nat.mul_assoc ..).symm
      _ ≤ num' * den * gap (num / den) := Nat.mul_le_mul_right _ le
      _ = num' * (den * gap (num / den)) := Nat.mul_assoc ..
  · -- the power of two that the greater quotient reaches lies between the two
    have some : num' / den' ≠ 0 := by
      intro zero
      rw [zero, Nat.le_zero] at whole
      rw [whole, zero] at same
      exact same rfl
    have reached : 2 ^ (num' / den').log2 ≤ num' / den' := Nat.log2_self_le some
    have missed : num / den < 2 ^ (num' / den').log2 := by
      refine Nat.lt_of_not_le fun reaches => same (Nat.le_antisymm ?_ ?_)
      · refine (Nat.le_log2 some).mpr (Nat.le_trans (Nat.log2_self_le ?_) whole)
        have := Nat.two_pow_pos (num' / den').log2
        omega
      · refine (Nat.le_log2 ?_).mpr reaches
        have := Nat.two_pow_pos (num' / den').log2
        omega
    exact Nat.le_trans (ofQuanta_le_two_pow pos missed) (two_pow_le_ofQuanta pos' reached)

end Binary64

end Stepwise
