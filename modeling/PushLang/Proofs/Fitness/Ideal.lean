import PushLang.Proofs.Binary32.Arithmetic
import PushLang.Regression

/-! Ideal fitness and hits. The mean error vanishes also where a small total is rounded off, or
where errors on either side of zero cancel, and hits are counted apart from it. So an ideal fitness
means that every case was a hit only for large enough thresholds and errors that are not below
zero. -/

namespace PushLang

open Binary32

namespace Fitness

variable {errors : List Binary32} {threshold : Binary32}

/-- With an ideal fitness every error counts as a hit. -/
def IdealIsSolved (errors : List Binary32) (threshold : Binary32) : Prop :=
  (ofErrors errors threshold).isIdeal = true → (ofErrors errors threshold).hits = errors.length

/-- A total that leaves nothing in the mean over some cases. -/
def Vanishes (count : Nat) (total : Binary32) : Prop := (total / ofInt count).isZero = true

theorem isIdeal_ofErrors (threshold : Binary32) (some : errors ≠ []) :
    (ofErrors errors threshold).isIdeal = true ↔
      Vanishes errors.length (errors.foldl (· + ·) 0) := by
  have present : errors.isEmpty = false := List.isEmpty_eq_false_iff.mpr some
  simp only [ofErrors, isIdeal, Vanishes, present, Bool.false_eq_true, if_false]
  split
  · rename_i infinite
    have large : largest.isZero = false := by decide
    simp only [large, Bool.false_eq_true, false_iff]
    intro zero
    have finite := isFinite_iff_not.mp (isFinite_of_div (isFinite_of_isZero zero))
    rw [infinite] at finite
    cases finite.2
  · rfl

theorem hits_ofErrors :
    (ofErrors errors threshold).hits = errors.length ↔ ∀ error ∈ errors, error < threshold := by
  simp [ofErrors, List.countP_eq_length]

theorem isFinite_of_foldl (errors : List Binary32) (start : Binary32)
    (finite : (errors.foldl (· + ·) start).isFinite = true) :
    start.isFinite = true ∧ ∀ error ∈ errors, error.isFinite = true := by
  induction errors generalizing start with
  | nil => exact ⟨finite, by simp⟩
  | cons error errors ih =>
    obtain ⟨first, later⟩ := ih (start + error) finite
    obtain ⟨before, own⟩ := isFinite_of_add first
    exact ⟨before, List.forall_mem_cons.mpr ⟨own, later⟩⟩

/-- A finite total of errors that are not below zero is no less than any of them. -/
theorem magnitude_le_foldl (errors : List Binary32) (start : Binary32) (low : 0 ≤ start.units)
    (none : ∀ error ∈ errors, 0 ≤ error.units)
    (finite : (errors.foldl (· + ·) start).isFinite = true) :
    start.magnitude ≤ (errors.foldl (· + ·) start).magnitude ∧
      ∀ error ∈ errors, error.magnitude ≤ (errors.foldl (· + ·) start).magnitude := by
  induction errors generalizing start with
  | nil => exact ⟨Nat.le_refl _, by simp⟩
  | cons error errors ih =>
    obtain ⟨own, others⟩ := List.forall_mem_cons.mp none
    obtain ⟨before, ends⟩ := isFinite_of_add (isFinite_of_foldl errors _ finite).1
    obtain ⟨first, second, above⟩ := magnitude_le_add before ends low own
    obtain ⟨sum, later⟩ := ih (start + error) above others finite
    exact ⟨Nat.le_trans first sum, List.forall_mem_cons.mpr ⟨Nat.le_trans second sum, later⟩⟩

theorem foldl_zeros (count : Nat) {total : Binary32} (finite : total.isFinite = true)
    (unsigned : total.isNegative = false) :
    (List.replicate count (0 : Binary32)).foldl (· + ·) total = total := by
  induction count with
  | zero => rfl
  | succ count ih =>
    rw [List.replicate_succ, List.foldl_cons, add_zero_of_finite finite unsigned, ih]

theorem foldl_single (count : Nat) {error : Binary32} (finite : error.isFinite = true)
    (unsigned : error.isNegative = false) :
    (error :: List.replicate count (0 : Binary32)).foldl (· + ·) 0 = error := by
  rw [List.foldl_cons, add_comm_of_finite (by decide) finite, add_zero_of_finite finite unsigned,
    foldl_zeros count finite unsigned]

theorem vanishes_iff {count : Nat} (positive : 0 < count) {total : Binary32} :
    Vanishes count total ↔ total.isFinite = true ∧
      ((ofInt count).isInfinite = true ∨
        total.units.natAbs * 2 ^ 150 ≤ (ofInt count).units.natAbs) := by
  obtain ⟨number, above⟩ := ofInt_positive positive
  exact isZero_div_iff number above

/-- What is no larger than a total that vanishes vanishes too. -/
theorem Vanishes.mono {count : Nat} (positive : 0 < count) {total part : Binary32}
    (vanishes : Vanishes count total) (smaller : part.magnitude ≤ total.magnitude) :
    Vanishes count part := by
  obtain ⟨finite, few⟩ := (vanishes_iff positive).mp vanishes
  have units := Nat.mul_le_mul_right (2 ^ 150) (natAbs_units_mono smaller)
  refine (vanishes_iff positive).mpr ⟨?_, few.imp_right (Nat.le_trans units)⟩
  exact isFinite_iff.mpr (Nat.lt_of_le_of_lt smaller (isFinite_iff.mp finite))

/-- Half a unit for each case is what vanishes. -/
theorem vanishes_iff_of_few {count : Nat} (positive : 0 < count) (few : count < 2 ^ 24)
    {total : Binary32} :
    Vanishes count total ↔ total.isFinite = true ∧ total.units.natAbs ≤ count / 2 := by
  obtain ⟨finite, units⟩ := ofInt_exact few
  rw [vanishes_iff positive, (isFinite_iff_not.mp finite).2, units]
  refine and_congr_right fun _ => ?_
  simp only [Bool.false_eq_true, false_or]
  omega

/-- Errors that are not below zero vanish one by one where their total does. -/
theorem idealIsSolved_of_vanishes (none : ∀ error ∈ errors, ¬ error < 0)
    (counted : ∀ total, ¬ total < 0 → Vanishes errors.length total → total < threshold) :
    IdealIsSolved errors threshold := by
  intro ideal
  refine hits_ofErrors.mpr fun error member => ?_
  have positive : 0 < errors.length := List.length_pos_of_mem member
  have vanishes := (isIdeal_ofErrors threshold (List.ne_nil_of_mem member)).mp ideal
  have finite := ((vanishes_iff positive).mp vanishes).1
  obtain ⟨-, finites⟩ := isFinite_of_foldl errors 0 finite
  have above (other : Binary32) (present : other ∈ errors) : 0 ≤ other.units :=
    (not_lt_zero_iff (isFinite_iff_not.mp (finites other present)).1).mp (none other present)
  obtain ⟨-, smaller⟩ := magnitude_le_foldl errors 0 (by decide) above finite
  exact counted error (none error member) (vanishes.mono positive (smaller error member))

/-- A total that vanishes may come from one case alone. -/
theorem lt_of_idealIsSolved {count : Nat} (positive : 0 < count)
    (solved : ∀ errors : List Binary32, errors.length = count → (∀ error ∈ errors, ¬ error < 0) →
      IdealIsSolved errors threshold)
    {total : Binary32} (above : ¬ total < 0) (vanishes : Vanishes count total) :
    total < threshold := by
  have finite := ((vanishes_iff positive).mp vanishes).1
  have unsigned := isNegative_abs total
  let errors := total.abs :: List.replicate (count - 1) 0
  have length : errors.length = count := by
    simp only [errors, List.length_cons, List.length_replicate]
    omega
  have none : ∀ error ∈ errors, ¬ error < 0 := by
    refine List.forall_mem_cons.mpr ⟨not_lt_zero unsigned, fun error member => ?_⟩
    rw [List.eq_of_mem_replicate member]
    decide
  have ideal : (ofErrors errors threshold).isIdeal = true := by
    rw [isIdeal_ofErrors threshold (List.cons_ne_nil _ _), length,
      foldl_single _ (isFinite_abs finite) unsigned]
    exact vanishes.mono positive (magnitude_abs total).le
  have counted := hits_ofErrors.mp (solved errors length none ideal) total.abs List.mem_cons_self
  exact lt_of_abs_lt (isFinite_iff_not.mp finite).1 above counted

/-- Without errors below zero, an ideal fitness means that all cases were hits if and only if the
threshold is above every total that vanishes. -/
theorem idealIsSolved_iff {count : Nat} (positive : 0 < count) (threshold : Binary32) :
    (∀ errors : List Binary32, errors.length = count → (∀ error ∈ errors, ¬ error < 0) →
      IdealIsSolved errors threshold) ↔
      ∀ total, ¬ total < 0 → Vanishes count total → total < threshold := by
  constructor
  · exact fun solved total above vanishes => lt_of_idealIsSolved positive solved above vanishes
  · rintro counted errors rfl none
    exact idealIsSolved_of_vanishes none counted

theorem forall_vanishes_iff {count : Nat} (positive : 0 < count) (few : count < 2 ^ 24)
    (threshold : Binary32) :
    (∀ total, ¬ total < 0 → Vanishes count total → total < threshold) ↔
      ofMagnitude false (count / 2) < threshold := by
  have step : exponentStep = 2 ^ 23 := rfl
  have infinite : infinityBits = 255 * 2 ^ 23 := rfl
  have units : (ofMagnitude false (count / 2)).units = (count / 2 : Nat) :=
    units_ofMagnitude (by omega)
  have finite : (ofMagnitude false (count / 2)).isFinite = true := by
    have signed : signBit = 2 ^ 31 := rfl
    rw [isFinite_iff, magnitude_ofMagnitude false (by omega)]
    omega
  constructor
  · intro counted
    refine counted _ ((not_lt_zero_iff (isFinite_iff_not.mp finite).1).mpr (by omega)) ?_
    exact (vanishes_iff_of_few positive few).mpr ⟨finite, by omega⟩
  · intro large total above vanishes
    obtain ⟨inside, small⟩ := (vanishes_iff_of_few positive few).mp vanishes
    obtain ⟨-, known, below⟩ := lt_iff.mp large
    exact lt_iff.mpr ⟨(isFinite_iff_not.mp inside).1, known, by omega⟩

/-- The largest number and its opposite cancel, and only with an infinite threshold are both of them
hits. -/
theorem eq_infinity_of_idealIsSolved {count : Nat} (several : 2 ≤ count)
    (solved : ∀ errors : List Binary32, errors.length = count → IdealIsSolved errors threshold) :
    threshold = infinity false := by
  let errors := largest :: -largest :: List.replicate (count - 2) 0
  have length : errors.length = count := by
    simp only [errors, List.length_cons, List.length_replicate]
    omega
  have cancelled : (0 : Binary32) + largest + -largest = 0 := by decide +kernel
  have sum : errors.foldl (· + ·) 0 = 0 := by
    simp only [errors, List.foldl_cons, cancelled]
    exact foldl_zeros _ (by decide) (by decide)
  have ideal : (ofErrors errors threshold).isIdeal = true := by
    have zero : (0 : Binary32).isFinite = true ∧ (0 : Binary32).units.natAbs = 0 := by decide
    rw [isIdeal_ofErrors threshold (List.cons_ne_nil _ _), length, sum, vanishes_iff (by omega),
      zero.2, Nat.zero_mul]
    exact ⟨zero.1, .inr (Nat.zero_le _)⟩
  exact eq_infinity_of_largest_lt (hits_ofErrors.mp
    (solved errors length ideal) largest List.mem_cons_self)

theorem idealIsSolved_infinity (errors : List Binary32) :
    IdealIsSolved errors (infinity false) := by
  intro ideal
  refine hits_ofErrors.mpr fun error member => ?_
  have positive : 0 < errors.length := List.length_pos_of_mem member
  have vanishes := (isIdeal_ofErrors _ (List.ne_nil_of_mem member)).mp ideal
  exact lt_infinity ((isFinite_of_foldl errors 0 ((vanishes_iff positive).mp vanishes).1).2 error
    member)

/-- No errors at all are always solved. Of some errors, none of them below zero, an ideal fitness
means that every case was a hit exactly if the threshold is above every total that vanishes in the
mean, which for few cases is half a unit for each. With errors on either side of zero it means so
for an infinite threshold only. The hits are those that a word of 32 bits counts, as long as there
are no more errors than that. -/
theorem ideal_solved_iff (threshold : Binary32) :
    (∀ errors : List Binary32, errors.length < UInt32.size →
      (ofErrors errors threshold).hits < UInt32.size) ∧
    IdealIsSolved [] threshold ∧ ∀ count : Nat, 0 < count →
      ((∀ errors : List Binary32, errors.length = count → (∀ error ∈ errors, ¬ error < 0) →
          IdealIsSolved errors threshold) ↔
        ∀ total, ¬ total < 0 → Vanishes count total → total < threshold) ∧
      (count < 2 ^ 24 →
        ((∀ errors : List Binary32, errors.length = count → (∀ error ∈ errors, ¬ error < 0) →
            IdealIsSolved errors threshold) ↔
          ofMagnitude false (count / 2) < threshold)) ∧
      (2 ≤ count →
        ((∀ errors : List Binary32, errors.length = count → IdealIsSolved errors threshold) ↔
          threshold = infinity false)) := by
  refine ⟨fun errors few => Nat.lt_of_le_of_lt List.countP_le_length few, fun _ => rfl,
    fun count positive => ⟨idealIsSolved_iff positive threshold, fun few => ?_,
      fun several => ⟨?_, ?_⟩⟩⟩
  · exact (idealIsSolved_iff positive threshold).trans (forall_vanishes_iff positive few threshold)
  · exact eq_infinity_of_idealIsSolved several
  · rintro rfl errors -
    exact idealIsSolved_infinity errors

/-- Over two cases one unit is lost, so that two of them are enough for a threshold and one is not,
as long as nothing cancels. -/
theorem ideal_solved_iff_two :
    (∀ errors : List Binary32, errors.length = 2 → (∀ error ∈ errors, ¬ error < 0) →
      IdealIsSolved errors (ofMagnitude false 2)) ∧
    ¬ (∀ errors : List Binary32, errors.length = 2 → (∀ error ∈ errors, ¬ error < 0) →
      IdealIsSolved errors (ofMagnitude false 1)) ∧
    ¬ ∀ errors : List Binary32, errors.length = 2 →
      IdealIsSolved errors (ofMagnitude false 2) := by
  obtain ⟨-, enough, cancelling⟩ := (ideal_solved_iff (ofMagnitude false 2)).2.2 2 (by decide)
  obtain ⟨-, short, -⟩ := (ideal_solved_iff (ofMagnitude false 1)).2.2 2 (by decide)
  refine ⟨(enough (by decide)).mpr (by decide), fun solved => ?_, fun solved => ?_⟩
  · exact absurd ((short (by decide)).mp solved) (by decide)
  · exact absurd ((cancelling (by decide)).mp solved) (by decide)

/-- Ideal without hits: nothing is below a threshold of zero, opposite errors cancel, and a unit is
rounded off in the mean of two. -/
theorem ideal_unsolved :
    ¬ IdealIsSolved [0] 0 ∧ ¬ IdealIsSolved [1, -1] 0.01 ∧
      ¬ IdealIsSolved [ofMagnitude false 1, 0] (ofMagnitude false 1) := by
  unfold IdealIsSolved
  decide +kernel

end Fitness

namespace Regression

variable {ρ : Type} [RandomSource ρ] {problem : Regression}

theorem exists_of_map_eq_ok {α β : Type} {change : α → β} {result : Except Error α} {value : β}
    (mapped : result.map change = .ok value) :
    ∃ origin, result = .ok origin ∧ change origin = value := by
  cases result with
  | error cause => cases mapped
  | ok origin => exact ⟨origin, rfl, Except.ok.inj mapped⟩

theorem not_lt_zero_errorOf (penalty : ¬ problem.penalty < 0) (output : Binary32)
    (result : Option Binary32) :
    ¬ problem.errorOf output result < 0 := by
  cases result with
  | none => exact penalty
  | some result => exact not_lt_zero (isNegative_abs _)

theorem not_lt_zero_of_caseError (penalty : ¬ problem.penalty < 0)
    {interpreter after : Interpreter ρ} {program : Program} {case : Case} {error : Binary32}
    (run : problem.caseError interpreter program case = (.ok error, after)) : ¬ error < 0 := by
  unfold caseError at run
  split at run
  · cases run
  · cases run
    exact not_lt_zero_errorOf penalty _ _

theorem errors_of_caseErrors (penalty : ¬ problem.penalty < 0) (program : Program)
    (cases : List Case) (interpreter : Interpreter ρ) {errors : List Binary32}
    (run : (problem.caseErrors program interpreter cases).1 = .ok errors) :
    errors.length = cases.length ∧ ∀ error ∈ errors, ¬ error < 0 := by
  induction cases generalizing interpreter errors with
  | nil =>
    cases run
    exact ⟨rfl, by simp⟩
  | cons case cases ih =>
    simp only [caseErrors] at run
    split at run
    · cases run
    · rename_i error after first
      obtain ⟨later, rest, rfl⟩ := exists_of_map_eq_ok run
      obtain ⟨length, others⟩ := ih after rest
      exact ⟨by simp [length],
        List.forall_mem_cons.mpr ⟨not_lt_zero_of_caseError penalty first, others⟩⟩

/-- A regression is solved by a program of ideal fitness, if its penalty is not below zero and its
threshold is above half a unit for each case. -/
theorem hits_of_isIdeal (penalty : ¬ problem.penalty < 0) (some : 0 < problem.cases.length)
    (few : problem.cases.length < 2 ^ 24)
    (threshold : ofMagnitude false (problem.cases.length / 2) < problem.threshold)
    {interpreter : Interpreter ρ} {program : Program} {fitness : Fitness}
    (evaluated : (problem.evaluate interpreter program).1 = .ok fitness)
    (ideal : fitness.isIdeal = true) :
    fitness.hits = problem.cases.length := by
  obtain ⟨errors, run, rfl⟩ := exists_of_map_eq_ok evaluated
  obtain ⟨length, none⟩ := errors_of_caseErrors penalty program problem.cases interpreter run
  rw [← length] at some few threshold ⊢
  exact Fitness.idealIsSolved_of_vanishes none
    ((Fitness.forall_vanishes_iff some few problem.threshold).mpr threshold) ideal

end Regression

end PushLang
