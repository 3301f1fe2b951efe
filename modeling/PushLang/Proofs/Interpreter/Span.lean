import PushLang.Builtin.Control

namespace PushLang

def span (first last : Int32) : List Int32 :=
  (List.range ((last.toInt - first.toInt).natAbs + 1)).map fun (step : Nat) =>
    Int32.ofInt (first.toInt + (last.toInt - first.toInt).sign * step)

/-- No integer of a span leaves the range of 32 bits. -/
theorem toInt_span (first last : Int32) :
    (span first last).map Int32.toInt =
      (List.range ((last.toInt - first.toInt).natAbs + 1)).map fun (step : Nat) =>
      first.toInt + (last.toInt - first.toInt).sign * step := by
  rw [span, List.map_map]
  refine List.map_congr_left fun step member => ?_
  have inside : step < (last.toInt - first.toInt).natAbs + 1 := List.mem_range.mp member
  have firstLow := first.le_toInt
  have firstHigh := first.toInt_lt
  have lastLow := last.le_toInt
  have lastHigh := last.toInt_lt
  rcases Int.lt_trichotomy (last.toInt - first.toInt) 0 with down | same | up
  · rw [Function.comp_apply, Int.sign_eq_neg_one_of_neg down]
    exact Int32.toInt_ofInt_of_le (by omega) (by omega)
  · rw [Function.comp_apply, same, Int.sign_zero]
    exact Int32.toInt_ofInt_of_le (by omega) (by omega)
  · rw [Function.comp_apply, Int.sign_eq_one_of_pos up]
    exact Int32.toInt_ofInt_of_le (by omega) (by omega)

private theorem span_of_next {first next last : Int32} (direction : Int)
    (toward : (last.toInt - first.toInt).sign = direction)
    (stepped : next.toInt = first.toInt + direction)
    (shorter : (last.toInt - first.toInt).natAbs = (last.toInt - next.toInt).natAbs + 1)
    (onward : last.toInt - next.toInt = 0 ∨ (last.toInt - next.toInt).sign = direction) :
    span first last = first :: span next last := by
  refine (List.map_inj_right fun _ _ => Int32.toInt_inj.mp).mp ?_
  rw [List.map_cons, toInt_span, toInt_span, shorter, List.range_succ_eq_map, List.map_cons,
    List.map_map, toward]
  congr 1
  · simp
  · refine List.map_congr_left fun step member => ?_
    have inside : step < (last.toInt - next.toInt).natAbs + 1 := List.mem_range.mp member
    rcases onward with arrived | same
    · obtain rfl : step = 0 := by omega
      simp [stepped]
    · rw [Function.comp_apply, same, stepped, Nat.succ_eq_add_one, Int.natCast_add, Int.mul_add]
      omega

/-- A span starts with its first integer and goes on from the next one, unless it is at its end. -/
theorem span_eq (first last : Int32) :
    span first last = first :: match Machine.stepTowards first last with
      | none => []
      | some next => span next last := by
  have firstLow := first.le_toInt
  have firstHigh := first.toInt_lt
  have lastLow := last.le_toInt
  have lastHigh := last.toInt_lt
  unfold Machine.stepTowards
  by_cases up : first < last
  · have below : first.toInt < last.toInt := Int32.lt_iff_toInt_lt.mp up
    have next : (first + 1).toInt = first.toInt + 1 := by
      rw [Int32.toInt_add, Int32.toInt_one, Int.bmod_eq_of_le (by omega) (by omega)]
    simp only [if_pos up]
    refine span_of_next 1 (Int.sign_eq_one_of_pos (by omega)) next (by omega) ?_
    by_cases arrived : last.toInt - (first + 1).toInt = 0
    · exact .inl arrived
    · exact .inr (Int.sign_eq_one_of_pos (by omega))
  · by_cases down : last < first
    · have above : last.toInt < first.toInt := Int32.lt_iff_toInt_lt.mp down
      have next : (first - 1).toInt = first.toInt + -1 := by
        rw [Int32.toInt_sub, Int32.toInt_one, Int.bmod_eq_of_le (by omega) (by omega)]
        rfl
      simp only [if_neg up, if_pos down]
      refine span_of_next (-1) (Int.sign_eq_neg_one_of_neg (by omega)) next (by omega) ?_
      by_cases arrived : last.toInt - (first - 1).toInt = 0
      · exact .inl arrived
      · exact .inr (Int.sign_eq_neg_one_of_neg (by omega))
    · have same : last.toInt = first.toInt := by
        rw [Int32.lt_iff_toInt_lt] at up down
        omega
      simp [span, if_neg up, if_neg down, same]

theorem span_zero {last : Int32} (natural : 0 ≤ last.toInt) :
    span 0 last = (List.range (last.toInt.toNat + 1)).map Int32.ofNat := by
  have bound : last.toInt.natAbs = last.toInt.toNat := by omega
  simp only [span, Int32.toInt_zero, Int.sub_zero, bound, Int.zero_add]
  refine List.map_congr_left fun step member => ?_
  have inside : step < last.toInt.toNat + 1 := List.mem_range.mp member
  rcases Int.lt_or_eq_of_le natural with positive | zero
  · rw [Int.sign_eq_one_of_pos positive, Int.one_mul, Int32.ofInt_eq_ofNat]
  · obtain rfl : step = 0 := by omega
    simp

end PushLang
