import Mathlib.Data.Int.Log
import PushLang.Proofs.Binary32.Value

namespace PushLang.Binary32

private theorem le_log_iff {quotient : ℚ} (positive : 0 < quotient) (place : Int) :
    place ≤ Int.log 2 quotient ↔ (2 : ℚ) ^ place ≤ quotient := by
  simpa using (Int.zpow_le_iff_le_log (b := 2) (by norm_num) positive).symm

private theorem log_lt_iff {quotient : ℚ} (positive : 0 < quotient) (place : Int) :
    Int.log 2 quotient < place ↔ quotient < (2 : ℚ) ^ place := by
  simpa using (Int.lt_zpow_iff_log_lt (b := 2) (by norm_num) positive).symm

/-- A comparison of scaled natural numbers, as one of quotients. -/
theorem scaled_le_iff (digits num : Nat) {den : Nat} (positive : 0 < den) (place : Int) :
    digits * (den <<< place.toNat) ≤ num <<< (-place).toNat ↔
      (digits : ℚ) * 2 ^ place ≤ num / den := by
  have denPositive : (0 : ℚ) < den := by exact_mod_cast positive
  rw [zpow_eq_div two_ne_zero, mul_div_assoc', div_le_div_iff₀ (by positivity) denPositive,
    Nat.shiftLeft_eq, Nat.shiftLeft_eq, mul_assoc, mul_comm _ (den : ℚ)]
  exact_mod_cast Iff.rfl

/-- The leading place of a quotient is that of the dividend above that of the divisor, or one below
it. -/
private theorem log_div_within {num den : Nat} (numPositive : 0 < num) (denPositive : 0 < den) :
    (num.log2 : Int) - den.log2 - 1 ≤ Int.log 2 ((num : ℚ) / den) ∧
      Int.log 2 ((num : ℚ) / den) ≤ num.log2 - den.log2 := by
  have quotient : (0 : ℚ) < num / den := by positivity
  have denCast : (0 : ℚ) < den := by exact_mod_cast denPositive
  have numLow : (2 : ℚ) ^ num.log2 ≤ num := by exact_mod_cast Nat.log2_self_le numPositive.ne'
  have numHigh : (num : ℚ) < 2 ^ (num.log2 + 1) := by exact_mod_cast Nat.lt_log2_self
  have denLow : (2 : ℚ) ^ den.log2 ≤ den := by exact_mod_cast Nat.log2_self_le denPositive.ne'
  have denHigh : (den : ℚ) < 2 ^ (den.log2 + 1) := by exact_mod_cast Nat.lt_log2_self
  have above : (2 : ℚ) ^ ((num.log2 : Int) - den.log2 - 1) ≤ num / den := by
    rw [le_div_iff₀ denCast]
    calc (2 : ℚ) ^ ((num.log2 : Int) - den.log2 - 1) * den
        ≤ (2 : ℚ) ^ ((num.log2 : Int) - den.log2 - 1) * 2 ^ (den.log2 + 1) := by gcongr
      _ = 2 ^ num.log2 := by
        rw [← zpow_natCast, ← zpow_add₀ (by norm_num), ← zpow_natCast]
        congr 1
        push_cast
        ring
      _ ≤ num := numLow
  have below : (num : ℚ) / den < 2 ^ ((num.log2 : Int) - den.log2 + 1) := by
    rw [div_lt_iff₀ denCast]
    calc (num : ℚ) < 2 ^ (num.log2 + 1) := numHigh
      _ = (2 : ℚ) ^ ((num.log2 : Int) - den.log2 + 1) * 2 ^ den.log2 := by
        rw [← zpow_natCast, ← zpow_natCast, ← zpow_add₀ (by norm_num)]
        congr 1
        push_cast
        ring
      _ ≤ (2 : ℚ) ^ ((num.log2 : Int) - den.log2 + 1) * den := by gcongr
  exact ⟨(le_log_iff quotient _).mpr above,
    Int.lt_add_one_iff.mp ((log_lt_iff quotient _).mpr below)⟩

/-- The place of the last digit lies 23 places below the leading one, unless that is below the least
place. -/
theorem lastPlace_eq (num den : Nat) (numPositive : 0 < num) (denPositive : 0 < den) :
    lastPlace num den = max (Int.log 2 ((num : ℚ) / den) - 23) (-149) := by
  have quotient : (0 : ℚ) < num / den := by positivity
  obtain ⟨atLeast, atMost⟩ := log_div_within numPositive denPositive
  have reached :
    den <<< ((num.log2 : Int) - den.log2).toNat ≤ num <<< (-((num.log2 : Int) - den.log2)).toNat ↔
      (num.log2 : Int) - den.log2 ≤ Int.log 2 ((num : ℚ) / den) := by
    have scaled := scaled_le_iff 1 num denPositive (num.log2 - den.log2)
    rw [Nat.one_mul, Nat.cast_one, one_mul] at scaled
    exact scaled.trans (le_log_iff quotient _).symm
  unfold lastPlace
  by_cases met : (num.log2 : Int) - den.log2 ≤ Int.log 2 ((num : ℚ) / den)
  · simp only [if_pos (reached.mpr met)]
    omega
  · simp only [if_neg (mt reached.mp met)]
    omega

private theorem lastPlace_of_value (num den bits : Nat) (numPositive : 0 < num)
    (denPositive : 0 < den) (same : (num : ℚ) / den = value bits) :
    lastPlace num den = exponent bits := by
  have positive : (0 : ℚ) < value bits := by
    rw [← same]
    positivity
  rw [lastPlace_eq num den numPositive denPositive, same]
  have least := le_exponent bits
  have atMost := (log_lt_iff positive _).mpr (value_lt_zpow bits)
  rcases Int.lt_or_eq_of_le least with normal | subnormal
  · have atLeast := (le_log_iff positive _).mpr (zpow_le_value normal)
    omega
  · omega

private theorem roundDiv_mul (significand den : Nat) (positive : 0 < den) :
    roundDiv (significand * den) den = significand := by
  simp [roundDiv, positive]

theorem le_roundDiv {digits num den : Nat} (positive : 0 < den) (le : digits * den ≤ num) :
    digits ≤ roundDiv num den := by
  have quotient : digits ≤ num / den := (Nat.le_div_iff_mul_le positive).mpr le
  simp only [roundDiv]
  split
  · exact quotient
  · split <;> omega

theorem roundDiv_eq_zero_iff {num den : Nat} (positive : 0 < den) :
    roundDiv num den = 0 ↔ 2 * num ≤ den := by
  rcases Nat.lt_or_ge num den with small | large
  · simp only [roundDiv, Nat.div_eq_of_lt small, Nat.mod_eq_of_lt small]
    split
    · omega
    · split <;> omega
  · have whole : 1 ≤ roundDiv num den := le_roundDiv positive (by omega)
    omega

theorem nearest_le (num den : Nat) : nearest num den ≤ infinityBits := by
  simp only [nearest]
  split
  · exact Nat.zero_le _
  · exact Nat.min_le_right _ _

/-- A quotient is rounded to no less than a finite magnitude that it reaches. -/
theorem le_nearest {num den bits : Nat} (positive : 0 < den) (finite : bits < infinityBits)
    (reached : value bits ≤ (num : ℚ) / den) : bits ≤ nearest num den := by
  rcases Nat.eq_zero_or_pos num with rfl | numPositive
  · have zero : value bits = 0 := le_antisymm (by simpa using reached) (value_nonneg bits)
    rw [bits_of_value_zero zero]
    exact Nat.zero_le _
  have quotient : (0 : ℚ) < num / den := by positivity
  have place := lastPlace_eq num den numPositive positive
  have step : exponentStep = 2 ^ 23 := rfl
  have least := le_exponent bits
  have own := bits_eq bits
  have above : exponent bits ≤ lastPlace num den := by
    rcases Int.lt_or_eq_of_le least with normal | subnormal
    · have leading := (le_log_iff quotient _).mpr ((zpow_le_value normal).trans reached)
      omega
    · omega
  simp only [nearest, if_neg (Nat.ne_of_gt numPositive)]
  refine Nat.le_min.mpr ⟨?_, finite.le⟩
  rcases Int.lt_or_eq_of_le above with lower | same
  · -- The quotient has a larger exponent, so that all of its digits are there.
    have digits : 2 ^ 23 ≤
        roundDiv (num <<< (-lastPlace num den).toNat) (den <<< (lastPlace num den).toNat) := by
      refine le_roundDiv (Nat.shiftLeft_pos_iff.mpr positive)
        ((scaled_le_iff _ num positive _).mpr ?_)
      have leading := (le_log_iff quotient (lastPlace num den + 23)).mp (by omega)
      rw [zpow_add₀ two_ne_zero, mul_comm] at leading
      exact_mod_cast leading
    have fewer := significand_lt bits
    have raised : ((exponent bits + 149).toNat + 1) * exponentStep ≤
        (lastPlace num den + 149).toNat * exponentStep :=
      Nat.mul_le_mul_right _ (by omega)
    rw [Nat.succ_mul] at raised
    omega
  · have digits : significand bits ≤
        roundDiv (num <<< (-lastPlace num den).toNat) (den <<< (lastPlace num den).toNat) := by
      refine le_roundDiv (Nat.shiftLeft_pos_iff.mpr positive)
        ((scaled_le_iff _ num positive _).mpr ?_)
      rwa [← same]
    rw [← same] at digits ⊢
    omega

/-- Just the quotients of at most half the least magnitude are rounded to zero. -/
theorem nearest_eq_zero_iff (num : Nat) {den : Nat} (positive : 0 < den) :
    nearest num den = 0 ↔ num * 2 ^ 150 ≤ den := by
  rcases Nat.eq_zero_or_pos num with rfl | numPositive
  · simp [nearest]
  have denPositive : (0 : ℚ) < den := by exact_mod_cast positive
  have quotient : (0 : ℚ) < num / den := by positivity
  have place := lastPlace_eq num den numPositive positive
  have halves (least : lastPlace num den = -149) :
      roundDiv (num <<< (-lastPlace num den).toNat) (den <<< (lastPlace num den).toNat) = 0 ↔
        num * 2 ^ 150 ≤ den := by
    have shifted : den <<< Int.toNat (-149) = den := by simp
    rw [least, shifted, roundDiv_eq_zero_iff positive, Nat.shiftLeft_eq,
      show Int.toNat (-(-149)) = 149 from rfl]
    omega
  have infinite : infinityBits ≠ 0 := by decide
  simp only [nearest, if_neg (Nat.ne_of_gt numPositive), Nat.min_eq_zero_iff, infinite, or_false,
    Nat.add_eq_zero_iff, Nat.mul_eq_zero]
  constructor
  · rintro ⟨low | none, digits⟩
    · exact (halves (by omega)).mp digits
    · cases none
  · intro small
    have tiny : (num : ℚ) / den < 2 ^ (-126 : Int) := by
      have scaled : (num : ℚ) * 2 ^ 150 ≤ den := by exact_mod_cast small
      rw [div_lt_iff₀ denPositive]
      calc (num : ℚ) < num * 2 ^ 150 * 2 ^ (-126 : Int) := by
            have numCast : (0 : ℚ) < num := by exact_mod_cast numPositive
            norm_num
            linarith
        _ ≤ den * 2 ^ (-126 : Int) := by gcongr
        _ = 2 ^ (-126 : Int) * den := mul_comm _ _
    have leading := (log_lt_iff quotient _).mpr tiny
    have least : lastPlace num den = -149 := by omega
    exact ⟨.inl (by omega), (halves least).mpr small⟩

/-- A quotient that is a finite magnitude is rounded to just that. -/
theorem nearest_of_value (num den bits : Nat) (denPositive : 0 < den) (finite : bits < infinityBits)
    (same : (num : ℚ) / den = value bits) : nearest num den = bits := by
  have denCast : (den : ℚ) ≠ 0 := by exact_mod_cast denPositive.ne'
  by_cases zero : num = 0
  · have none : bits = 0 := bits_of_value_zero (by rw [← same, zero]; simp)
    simp [nearest, zero, none]
  · have place := lastPlace_of_value num den bits (Nat.pos_of_ne_zero zero) denPositive same
    have exact :
        num <<< (-exponent bits).toNat = significand bits * (den <<< (exponent bits).toNat) := by
      rw [value, zpow_eq_div two_ne_zero, div_eq_iff denCast] at same
      rw [Nat.shiftLeft_eq, Nat.shiftLeft_eq]
      have scale : (2 : ℚ) ^ (-exponent bits).toNat ≠ 0 := by positivity
      have product : (num : ℚ) * 2 ^ (-exponent bits).toNat =
          significand bits * (den * 2 ^ (exponent bits).toNat) := by
        rw [same]
        field_simp
      exact_mod_cast product
    have scaled : 0 < den <<< (exponent bits).toNat := Nat.shiftLeft_pos_iff.mpr denPositive
    simp only [nearest, if_neg zero, place, exact, roundDiv_mul _ _ scaled, bits_eq]
    exact Nat.min_eq_left finite.le

end PushLang.Binary32
