import PushLang.Binary32.Arithmetic
import PushLang.Proofs.Binary32.Nearest
import PushLang.Proofs.Numeral.Real

namespace PushLang.Binary32

theorem magnitude_lt (x : Binary32) : x.magnitude < signBit := Nat.mod_lt _ (by decide)

theorem nearest_lt (num den : Nat) : nearest num den < signBit :=
  Nat.lt_of_le_of_lt (nearest_le num den) (by decide)

theorem magnitude_ofMagnitude (negative : Bool) {bits : Nat} (small : bits < signBit) :
    (ofMagnitude negative bits).magnitude = bits := by
  simp only [signBit] at small
  cases negative <;> simp only [magnitude, ofMagnitude, signBit, UInt32.toNat_ofNat',
    Bool.false_eq_true, if_true, if_false] <;>
    omega

theorem isNegative_ofMagnitude (negative : Bool) {bits : Nat} (small : bits < signBit) :
    (ofMagnitude negative bits).isNegative = negative := by
  simp only [signBit] at small
  cases negative <;> simp only [isNegative, ofMagnitude, signBit, UInt32.toNat_ofNat',
    Bool.false_eq_true, if_true, if_false, decide_eq_true_eq, decide_eq_false_iff_not] <;> omega

theorem magnitude_abs (x : Binary32) : x.abs.magnitude = x.magnitude :=
  magnitude_ofMagnitude false (magnitude_lt x)

theorem isNegative_abs (x : Binary32) : x.abs.isNegative = false :=
  isNegative_ofMagnitude false (magnitude_lt x)

theorem isFinite_iff {x : Binary32} : x.isFinite = true ↔ x.magnitude < infinityBits := by
  simp [isFinite]

theorem isZero_iff {x : Binary32} : x.isZero = true ↔ x.magnitude = 0 := by simp [isZero]

theorem isFinite_abs {x : Binary32} (finite : x.isFinite = true) : x.abs.isFinite = true := by
  rw [isFinite_iff, magnitude_abs]
  exact isFinite_iff.mp finite

theorem isFinite_iff_not {x : Binary32} :
    x.isFinite = true ↔ x.isNaN = false ∧ x.isInfinite = false := by
  simp only [isFinite, isNaN, isInfinite, decide_eq_true_eq, decide_eq_false_iff_not,
    beq_eq_false_iff_ne]
  omega

theorem units_eq (x : Binary32) :
    x.units = if x.isNegative then -(x.units.natAbs : Int) else x.units.natAbs := by
  unfold units
  split <;> simp only [Int.natAbs_neg, Int.natAbs_natCast]

theorem natAbs_units (x : Binary32) : (x.units.natAbs : ℚ) = value x.magnitude * 2 ^ 149 := by
  have shifted :
      x.units.natAbs = significand x.magnitude * 2 ^ (exponent x.magnitude + 149).toNat := by
    unfold units
    split <;> simp only [Int.natAbs_neg, Int.natAbs_natCast, Nat.shiftLeft_eq]
  have place : ((exponent x.magnitude + 149).toNat : Int) = exponent x.magnitude + 149 := by
    have least := le_exponent x.magnitude
    omega
  rw [shifted, value, mul_assoc, ← zpow_natCast 2 149, ← zpow_add₀ two_ne_zero]
  push_cast
  rw [← zpow_natCast, place]

theorem natAbs_units_mono {x y : Binary32} (le : x.magnitude ≤ y.magnitude) :
    x.units.natAbs ≤ y.units.natAbs := by
  have scaled : (x.units.natAbs : ℚ) ≤ y.units.natAbs := by
    rw [natAbs_units, natAbs_units]
    exact mul_le_mul_of_nonneg_right (value_mono le) (by positivity)
  exact_mod_cast scaled

theorem units_eq_zero_iff {x : Binary32} : x.units = 0 ↔ x.magnitude = 0 := by
  have scaled := natAbs_units x
  constructor
  · intro zero
    rw [zero, Int.natAbs_zero, Nat.cast_zero] at scaled
    exact bits_of_value_zero ((mul_eq_zero.mp scaled.symm).resolve_right (by positivity))
  · intro zero
    have none : value 0 = 0 := by simp [value, significand, exponentStep]
    rw [zero, none, zero_mul] at scaled
    exact Int.natAbs_eq_zero.mp (by exact_mod_cast scaled)

theorem isFinite_onNumbers (op : Binary32 → Binary32 → Binary32) {x y : Binary32}
    (finite : (onNumbers op x y).isFinite = true) :
    x.isNaN = false ∧ y.isNaN = false ∧ (op x y).isFinite = true := by
  unfold onNumbers at finite
  split at finite
  · rename_i invalid
    rw [(isFinite_iff_not.mp finite).1] at invalid
    cases invalid
  · rename_i left
    split at finite
    · rename_i invalid
      rw [(isFinite_iff_not.mp finite).1] at invalid
      cases invalid
    · rename_i right
      exact ⟨Bool.eq_false_iff.mpr left, Bool.eq_false_iff.mpr right, finite⟩

theorem units_nonneg {x : Binary32} (unsigned : x.isNegative = false) : 0 ≤ x.units := by
  rw [units_eq, unsigned]
  exact Int.natCast_nonneg _

theorem lt_iff {x y : Binary32} :
    x < y ↔ x.isNaN = false ∧ y.isNaN = false ∧ x.units < y.units := by
  change x.isBelow y = true ↔ _
  simp [isBelow, and_assoc]

theorem not_lt_zero_iff {x : Binary32} (number : x.isNaN = false) : ¬ x < 0 ↔ 0 ≤ x.units := by
  have zero : (0 : Binary32).isNaN = false ∧ (0 : Binary32).units = 0 := by decide
  simp [lt_iff, number, zero]

theorem not_lt_zero {x : Binary32} (unsigned : x.isNegative = false) : ¬ x < 0 := by
  intro negative
  have below : x.units < (0 : Binary32).units := (lt_iff.mp negative).2.2
  have zero : (0 : Binary32).units = 0 := by decide
  have above := units_nonneg unsigned
  omega

theorem lt_infinity {x : Binary32} (finite : x.isFinite = true) : x < infinity false := by
  have bounds : largest.magnitude = infinityBits - 1 ∧ (infinity false).isNaN = false ∧
      (largest.units.natAbs : Int) < (infinity false).units := by decide +kernel
  have small : x.magnitude ≤ largest.magnitude := by
    rw [bounds.1]
    exact Nat.le_sub_one_of_lt (isFinite_iff.mp finite)
  have units := natAbs_units_mono small
  exact lt_iff.mpr ⟨(isFinite_iff_not.mp finite).1, bounds.2.1, by omega⟩

theorem eq_infinity_of_largest_lt {x : Binary32} (above : largest < x) : x = infinity false := by
  obtain ⟨-, number, units⟩ := lt_iff.mp above
  have bounds : largest.magnitude = infinityBits - 1 ∧ 0 ≤ largest.units := by decide +kernel
  have unsigned : x.isNegative = false := by
    refine Bool.eq_false_iff.mpr fun negative => ?_
    rw [units_eq x, negative] at units
    simp only [if_true] at units
    omega
  have beyond : ¬ x.magnitude ≤ largest.magnitude := by
    intro small
    have fewer := natAbs_units_mono small
    omega
  have infinite : x.magnitude = infinityBits := by
    have most : x.magnitude ≤ infinityBits := by simpa [isNaN] using number
    omega
  rw [← Numeral.ofMagnitude_magnitude x, unsigned, infinite, infinity]

theorem units_abs {x : Binary32} (above : 0 ≤ x.units) : x.abs.units = x.units := by
  have unsigned := units_nonneg (isNegative_abs x)
  have same := Nat.le_antisymm (natAbs_units_mono (magnitude_abs x).le)
    (natAbs_units_mono (magnitude_abs x).ge)
  omega

theorem lt_of_abs_lt {x y : Binary32} (number : x.isNaN = false) (above : ¬ x < 0)
    (below : x.abs < y) : x < y := by
  obtain ⟨-, known, units⟩ := lt_iff.mp below
  rw [units_abs ((not_lt_zero_iff number).mp above)] at units
  exact lt_iff.mpr ⟨number, known, units⟩

theorem unitsOfOne_eq : (unitsOfOne : ℚ) = 2 ^ 149 := by norm_num [unitsOfOne, Nat.shiftLeft_eq]

/-- What is at least as large as a number in units is rounded to at least that number. -/
theorem le_nearest_units {x : Binary32} (finite : x.isFinite = true) {total : Nat}
    (reached : x.units.natAbs ≤ total) :
    x.magnitude ≤ nearest total unitsOfOne := by
  refine le_nearest (by decide) (isFinite_iff.mp finite) ?_
  rw [unitsOfOne_eq, le_div_iff₀ (by positivity), ← natAbs_units]
  exact_mod_cast reached

theorem nearest_units {x : Binary32} (finite : x.isFinite = true) :
    nearest x.units.natAbs unitsOfOne = x.magnitude := by
  refine nearest_of_value _ _ _ (by decide) (isFinite_iff.mp finite) ?_
  rw [unitsOfOne_eq, div_eq_iff (by positivity), natAbs_units]

theorem add_of_finite {x y : Binary32} (left : x.isFinite = true) (right : y.isFinite = true) :
    x + y = if x.units + y.units = 0 then ofMagnitude (x.isNegative && y.isNegative) 0
      else ofMagnitude (x.units + y.units < 0) (nearest (x.units + y.units).natAbs unitsOfOne) := by
  obtain ⟨leftNumber, leftInside⟩ := isFinite_iff_not.mp left
  obtain ⟨rightNumber, rightInside⟩ := isFinite_iff_not.mp right
  change onNumbers sum x y = _
  simp only [onNumbers, sum, leftNumber, rightNumber, leftInside, rightInside, Bool.false_eq_true,
    if_false]

theorem isFinite_of_add {x y : Binary32} (finite : (x + y).isFinite = true) :
    x.isFinite = true ∧ y.isFinite = true := by
  obtain ⟨left, right, total⟩ := isFinite_onNumbers sum finite
  rw [isFinite_iff_not, isFinite_iff_not]
  cases first : x.isInfinite with
  | true =>
    simp only [sum, first, if_true] at total
    split at total
    · exact absurd total (by decide)
    · simp [first, isFinite_iff_not] at total
  | false =>
    cases second : y.isInfinite with
    | true => simp [sum, first, second, isFinite_iff_not] at total
    | false => exact ⟨⟨left, rfl⟩, right, rfl⟩

/-- A sum of finite numbers that are not below zero is not below zero, and no less than either of
them. -/
theorem magnitude_le_add {x y : Binary32} (left : x.isFinite = true) (right : y.isFinite = true)
    (low : 0 ≤ x.units) (lowToo : 0 ≤ y.units) :
    x.magnitude ≤ (x + y).magnitude ∧ y.magnitude ≤ (x + y).magnitude ∧ 0 ≤ (x + y).units := by
  rw [add_of_finite left right]
  split
  · have none := magnitude_ofMagnitude (x.isNegative && y.isNegative) (show 0 < signBit by decide)
    rw [none, units_eq_zero_iff.mpr none, units_eq_zero_iff.mp (show x.units = 0 by omega),
      units_eq_zero_iff.mp (show y.units = 0 by omega)]
    exact ⟨Nat.le_refl 0, Nat.le_refl 0, Int.le_refl 0⟩
  · have sign : decide (x.units + y.units < 0) = false := decide_eq_false (by omega)
    rw [sign, magnitude_ofMagnitude _ (nearest_lt _ _)]
    exact ⟨le_nearest_units left (by omega), le_nearest_units right (by omega),
      units_nonneg (isNegative_ofMagnitude _ (nearest_lt _ _))⟩

theorem add_comm_of_finite {x y : Binary32} (left : x.isFinite = true) (right : y.isFinite = true) :
    x + y = y + x := by
  rw [add_of_finite left right, add_of_finite right left, Int.add_comm, Bool.and_comm]

theorem add_zero_of_finite {x : Binary32} (finite : x.isFinite = true)
    (unsigned : x.isNegative = false) : x + 0 = x := by
  have none : (0 : Binary32).units = 0 := by decide
  have own := Numeral.ofMagnitude_magnitude x
  rw [unsigned] at own
  rw [add_of_finite finite (by decide), none, Int.add_zero, unsigned, nearest_units finite]
  split
  · rename_i zero
    rw [units_eq_zero_iff.mp zero] at own
    exact own
  · rw [decide_eq_false (Int.not_lt.mpr (units_nonneg unsigned))]
    exact own

theorem isFinite_of_div {x y : Binary32} (finite : (x / y).isFinite = true) :
    x.isFinite = true := by
  obtain ⟨left, -, share⟩ := isFinite_onNumbers quotient finite
  have beyond : invalid.isFinite = false ∧ ∀ negative, (infinity negative).isFinite = false := by
    decide
  refine isFinite_iff_not.mpr ⟨left, Bool.eq_false_iff.mpr fun infinite => ?_⟩
  simp only [quotient, infinite, Bool.true_or, if_true] at share
  split at share <;> simp [beyond] at share

theorem isFinite_of_isZero {x : Binary32} (zero : x.isZero = true) : x.isFinite = true := by
  rw [isFinite_iff, isZero_iff.mp zero]
  decide

/-- A share of a positive number of parts is zero if there are infinitely many of them, or at most
half of the least positive number falls to each. -/
theorem isZero_div_iff {x y : Binary32} (number : y.isNaN = false) (positive : 0 < y.units) :
    (x / y).isZero = true ↔
      x.isFinite = true ∧ (y.isInfinite = true ∨ x.units.natAbs * 2 ^ 150 ≤ y.units.natAbs) := by
  have nonzero : y.isZero = false := by
    refine Bool.eq_false_iff.mpr fun zero => ?_
    rw [units_eq_zero_iff.mpr (isZero_iff.mp zero)] at positive
    omega
  have share (finite : x.isFinite = true) :
      (x / y).isZero = true ↔ y.isInfinite = true ∨ x.units.natAbs * 2 ^ 150 ≤ y.units.natAbs := by
    obtain ⟨leftNumber, leftInside⟩ := isFinite_iff_not.mp finite
    change (onNumbers quotient x y).isZero = true ↔ _
    simp only [onNumbers, quotient, leftNumber, leftInside, number, nonzero, Bool.false_eq_true,
      Bool.false_and, Bool.and_false, Bool.or_false, if_false]
    split
    · simp [*, isZero_iff, magnitude_ofMagnitude _ (show 0 < signBit by decide)]
    · have parts : 0 < y.units.natAbs := by omega
      simp only [*, isZero_iff, magnitude_ofMagnitude _ (nearest_lt _ _),
        nearest_eq_zero_iff _ parts, Bool.false_eq_true, false_or]
  constructor
  · intro zero
    have finite := isFinite_of_div (isFinite_of_isZero zero)
    exact ⟨finite, (share finite).mp zero⟩
  · exact fun ⟨finite, few⟩ => (share finite).mpr few

theorem ofInt_positive {count : Nat} (positive : 0 < count) :
    (ofInt count).isNaN = false ∧ 0 < (ofInt count).units := by
  have sign : decide ((count : Int) < 0) = false := decide_eq_false (by omega)
  have magnitude := magnitude_ofMagnitude false (nearest_lt count 1)
  have unsigned := units_nonneg (isNegative_ofMagnitude false (nearest_lt count 1))
  have nonzero : (ofMagnitude false (nearest count 1)).units ≠ 0 := by
    intro zero
    rw [units_eq_zero_iff, magnitude, nearest_eq_zero_iff count Nat.one_pos] at zero
    omega
  rw [ofInt, sign, Int.natAbs_natCast]
  exact ⟨by simpa [isNaN, magnitude] using nearest_le count 1, by omega⟩

theorem ofInt_exact {count : Nat} (few : count < 2 ^ 24) :
    (ofInt count).isFinite = true ∧ (ofInt count).units.natAbs = count * 2 ^ 149 := by
  obtain ⟨bits, finite, value⟩ := exists_value count 149 few (by omega)
  replace value : Binary32.value bits = count := by simpa using value
  have exact : nearest count 1 = bits :=
    nearest_of_value count 1 bits Nat.one_pos finite (by simp [value])
  have sign : decide ((count : Int) < 0) = false := decide_eq_false (by omega)
  have magnitude :=
    magnitude_ofMagnitude false (finite.trans (show infinityBits < signBit by decide))
  have scaled := natAbs_units (ofMagnitude false bits)
  rw [magnitude, value] at scaled
  rw [ofInt, sign, Int.natAbs_natCast, exact, isFinite_iff, magnitude]
  exact ⟨finite, by exact_mod_cast scaled⟩

theorem units_ofMagnitude {bits : Nat} (small : bits < exponentStep) :
    (ofMagnitude false bits).units = bits := by
  have bound : bits < signBit := Nat.lt_trans small (by decide)
  have scaled := natAbs_units (ofMagnitude false bits)
  have value : value bits = bits * 2 ^ (-149 : Int) := by
    simp [Binary32.value, significand, exponent, small, Nat.div_eq_of_lt small]
  have one : (2 : ℚ) ^ (-149 : Int) * 2 ^ 149 = 1 := by norm_num
  rw [magnitude_ofMagnitude false bound, value, mul_assoc, one, mul_one] at scaled
  rw [units_eq, isNegative_ofMagnitude false bound]
  simp only [Bool.false_eq_true, if_false]
  exact_mod_cast scaled

end PushLang.Binary32
