import Mathlib.Algebra.Order.Field.Power
import Mathlib.Data.Rat.Floor
import Mathlib.Tactic.Positivity
import Mathlib.Tactic.Ring
import Mathlib.Tactic.Linarith
import Mathlib.Tactic.FieldSimp
import PushLang.Binary32.Basic

namespace PushLang.Binary32

/-- The number that the bits of a finite magnitude stand for. -/
def value (bits : Nat) : ℚ := significand bits * 2 ^ exponent bits

theorem zpow_eq_div {base : ℚ} (nonzero : base ≠ 0) (place : Int) :
    base ^ place = base ^ place.toNat / base ^ (-place).toNat := by
  have parts : place = (place.toNat : Int) - ((-place).toNat : Int) := by omega
  conv_lhs => rw [parts]
  rw [zpow_sub₀ nonzero, zpow_natCast, zpow_natCast]

theorem significand_lt (bits : Nat) : significand bits < 2 ^ 24 := by
  have step : exponentStep = 2 ^ 23 := rfl
  have remainder : bits % exponentStep < exponentStep := Nat.mod_lt _ (by decide)
  unfold significand
  split <;> omega

theorem le_exponent (bits : Nat) : -149 ≤ exponent bits := by
  simp only [exponent]
  omega

theorem exponent_mono {first second : Nat} (le : first ≤ second) :
    exponent first ≤ exponent second := by
  have quotients : first / exponentStep ≤ second / exponentStep := Nat.div_le_div_right le
  simp only [exponent]
  omega

theorem le_significand {bits : Nat} (normal : -149 < exponent bits) :
    2 ^ 23 ≤ significand bits := by
  have step : exponentStep = 2 ^ 23 := rfl
  have large : ¬ bits < exponentStep := by
    intro small
    simp [exponent, Nat.div_eq_of_lt small] at normal
  rw [significand, if_neg large]
  omega

theorem value_nonneg (bits : Nat) : 0 ≤ value bits := by
  unfold value
  positivity

theorem value_lt_zpow (bits : Nat) : value bits < 2 ^ (exponent bits + 24) := by
  have digits : (significand bits : ℚ) < 2 ^ 24 := by exact_mod_cast significand_lt bits
  rw [zpow_add₀ two_ne_zero, mul_comm _ ((2 : ℚ) ^ (24 : Int)), value]
  exact mul_lt_mul_of_pos_right (by exact_mod_cast digits) (by positivity)

theorem zpow_le_value {bits : Nat} (normal : -149 < exponent bits) :
    (2 : ℚ) ^ (exponent bits + 23) ≤ value bits := by
  have digits : (2 : ℚ) ^ 23 ≤ significand bits := by exact_mod_cast le_significand normal
  rw [zpow_add₀ two_ne_zero, mul_comm, value]
  exact mul_le_mul_of_nonneg_right (by exact_mod_cast digits) (by positivity)

/-- The bits of a magnitude, put together from its exponent and significand. -/
theorem bits_eq (bits : Nat) :
    (exponent bits + 149).toNat * exponentStep + significand bits = bits := by
  have whole := Nat.div_add_mod bits exponentStep
  by_cases small : bits < exponentStep
  · simp [exponent, significand, small, Nat.div_eq_of_lt small]
  · have quotient : 1 ≤ bits / exponentStep :=
      (Nat.one_le_div_iff (by decide)).mpr (Nat.le_of_not_lt small)
    have place : (exponent bits + 149).toNat = bits / exponentStep - 1 := by
      simp only [exponent, Nat.max_eq_left quotient]
      omega
    obtain ⟨before, same⟩ := Nat.exists_eq_add_of_le' quotient
    rw [place, significand, if_neg small]
    rw [same] at whole ⊢
    rw [Nat.mul_add] at whole
    rw [Nat.add_sub_cancel, Nat.mul_comm]
    omega

theorem bits_of_value_zero {bits : Nat} (zero : value bits = 0) : bits = 0 := by
  have scale : (2 : ℚ) ^ exponent bits ≠ 0 := by positivity
  have none : significand bits = 0 := by exact_mod_cast (mul_eq_zero.mp zero).resolve_right scale
  unfold significand at none
  split at none
  · exact none
  · exact absurd (Nat.eq_zero_of_add_eq_zero_right none) (by decide)

theorem least_le_value {bits : Nat} (positive : bits ≠ 0) :
    (2 : ℚ) ^ (-149 : Int) ≤ value bits := by
  have digits : 1 ≤ significand bits := by
    have step : 0 < exponentStep := by decide
    unfold significand
    split <;> omega
  calc (2 : ℚ) ^ (-149 : Int)
    _ ≤ 2 ^ exponent bits := zpow_le_zpow_right₀ (by norm_num) (le_exponent bits)
    _ = 1 * 2 ^ exponent bits := (one_mul _).symm
    _ ≤ value bits := mul_le_mul_of_nonneg_right (by exact_mod_cast digits) (by positivity)

/-- Finite magnitudes stay below the first power of two out of range. -/
theorem value_lt {bits : Nat} (finite : bits < infinityBits) : value bits < 2 ^ (128 : Int) := by
  have place : exponent bits + 24 ≤ 128 := by
    have : bits / exponentStep < 255 := Nat.div_lt_of_lt_mul finite
    simp only [exponent]
    omega
  exact (value_lt_zpow bits).trans_le (zpow_le_zpow_right₀ (by norm_num) place)

theorem value_mono {first second : Nat} (le : first ≤ second) : value first ≤ value second := by
  rcases Int.lt_or_eq_of_le (exponent_mono le) with lower | same
  · have power : (2 : ℚ) ^ (exponent first + 24) ≤ 2 ^ (exponent second + 23) :=
      zpow_le_zpow_right₀ (by norm_num) (by omega)
    have normal : -149 < exponent second := Int.lt_of_le_of_lt (le_exponent first) lower
    exact ((value_lt_zpow first).le.trans power).trans (zpow_le_value normal)
  · have digits : significand first ≤ significand second := by
      have firstBits := bits_eq first
      have secondBits := bits_eq second
      rw [same] at firstBits
      omega
    rw [value, value, same]
    exact mul_le_mul_of_nonneg_right (by exact_mod_cast digits) (by positivity)

/-- Digits at any place within the range of exponents make up a magnitude. -/
theorem exists_value (digits place : Nat) (few : digits < 2 ^ 24) (within : place ≤ 253) :
    ∃ bits < infinityBits, value bits = digits * 2 ^ ((place : Int) - 149) := by
  have infinite : infinityBits = 255 * 2 ^ 23 := rfl
  induction place generalizing digits with
  | zero =>
    refine ⟨digits, by omega, ?_⟩
    have same : significand digits = digits := by
      unfold significand exponentStep
      split <;> omega
    have least : exponent digits = -149 := by
      simp only [exponent, exponentStep]
      omega
    rw [value, same, least]
    rfl
  | succ place ih =>
    by_cases small : digits < 2 ^ 23
    · -- With room in front of them the digits move up, and their place down.
      obtain ⟨bits, finite, same⟩ := ih (2 * digits) (by omega) (by omega)
      refine ⟨bits, finite, ?_⟩
      rw [same, show ((place + 1 : Nat) : Int) - 149 = (place : Int) - 149 + 1 by omega,
        zpow_add_one₀ two_ne_zero]
      push_cast
      ring
    · refine ⟨(place + 1) * 2 ^ 23 + digits, by omega, ?_⟩
      have same : significand ((place + 1) * 2 ^ 23 + digits) = digits := by
        unfold significand exponentStep
        split <;> omega
      have raised : exponent ((place + 1) * 2 ^ 23 + digits) = ((place + 1 : Nat) : Int) - 149 := by
        simp only [exponent, exponentStep]
        omega
      rw [value, same, raised]

end PushLang.Binary32
