import PushLang.Proofs.Random.Script
import PushLang.Proofs.Safety.Generation

/-! Random integers stay in their range. A draw is rounded down to a multiple of the step and added
to the least integer, and no number on the way leaves its width, whatever the bounds and the step
are. All integers of a range come about as long as it has no more of them than the largest integer
says. -/

namespace PushLang

variable {ρ : Type} [RandomSource ρ]

/-- An empty range counts as one integer, and no range has more than the largest integer says. -/
theorem Checked.integerSpan_bounds (config : Config) :
    0 < integerSpan config ∧ integerSpan config < 2147483648 ∧
      integerSpan config ≤ max 1 (config.maxInteger.toInt - config.minInteger.toInt) := by
  have most : Int32.maxValue.toInt = 2147483647 := by decide
  unfold integerSpan
  omega

/-- The draw that a random integer is made from. -/
def integerDraw (config : Config) (source : ρ) : Nat :=
  (below (Checked.integerSpan config).toNat source).1

theorem integerDraw_lt (config : Config) (source : ρ) :
    (integerDraw config source : Int) < Checked.integerSpan config := by
  obtain ⟨positive, -, -⟩ := Checked.integerSpan_bounds config
  have inside : integerDraw config source < (Checked.integerSpan config).toNat :=
    RandomSource.below_lt _ source (by omega)
  omega

/-- The multiple of a positive step that a draw is rounded down to. -/
def Config.roundDown (config : Config) (draw : Nat) : Nat :=
  if 0 < config.integerStep then
    draw / config.integerStep.toInt.toNat * config.integerStep.toInt.toNat else draw

theorem Config.roundDown_le (config : Config) (draw : Nat) : config.roundDown draw ≤ draw := by
  unfold Config.roundDown
  split
  · exact Nat.div_mul_le_self draw _
  · exact Nat.le_refl draw

/-- The same with integers of 32 bits. -/
def Config.integerOffset (config : Config) (draw : Nat) : Int32 :=
  if 0 < config.integerStep then Int32.ofNat draw - Int32.ofNat draw % config.integerStep
  else Int32.ofNat draw

/-- A draw without its remainder is the multiple of the step below it. -/
private theorem toInt_sub_remainder {draw : Nat} (small : draw < 2147483648) {step : Int32}
    (positive : 0 < step) :
    (Int32.ofNat draw - Int32.ofNat draw % step).toInt =
      (draw / step.toInt.toNat * step.toInt.toNat : Nat) := by
  have exact : (Int32.ofNat draw).toInt = draw := Int32.toInt_ofNat_of_lt (by omega)
  have stepPositive : 0 < step.toInt := by simpa using Int32.lt_iff_toInt_lt.mp positive
  have stepNatural : step.toInt = (step.toInt.toNat : Int) :=
    (Int.toNat_of_nonneg (Int.le_of_lt stepPositive)).symm
  have remainder : (Int32.ofNat draw % step).toInt = (draw % step.toInt.toNat : Nat) := by
    rw [Int32.toInt_mod, exact, stepNatural]
    rfl
  have parts := Nat.div_add_mod' draw step.toInt.toNat
  rw [Int32.toInt_sub, exact, remainder]
  generalize draw / step.toInt.toNat * step.toInt.toNat = multiple at parts ⊢
  rw [Int.bmod_eq_of_le (by omega) (by omega)]
  omega

theorem toInt_integerOffset (config : Config) {draw : Nat} (small : draw < 2147483648) :
    (config.integerOffset draw).toInt = config.roundDown draw := by
  unfold Config.integerOffset Config.roundDown
  split
  · rename_i positive
    exact toInt_sub_remainder small positive
  · exact Int32.toInt_ofNat_of_lt (by omega)

theorem sum_within (config : Config) {draw : Nat}
    (inside : (draw : Int) < Checked.integerSpan config) :
    -2147483648 ≤ (config.integerOffset draw).toInt + config.minInteger.toInt ∧
      (config.integerOffset draw).toInt + config.minInteger.toInt ≤ 2147483647 := by
  have rounded := config.roundDown_le draw
  obtain ⟨-, small, span⟩ := Checked.integerSpan_bounds config
  have low := config.minInteger.le_toInt
  have lowest := config.minInteger.toInt_lt
  have highest := config.maxInteger.toInt_lt
  rw [toInt_integerOffset config (by omega)]
  omega

theorem randomInteger_eq (config : Config) (source : ρ) :
    randomInteger config source =
      (config.integerOffset (integerDraw config source) + config.minInteger,
      (below (Checked.integerSpan config).toNat source).2) := rfl

theorem toInt_randomInteger (config : Config) (source : ρ) :
    (randomInteger config source).1.toInt =
      config.minInteger.toInt + config.roundDown (integerDraw config source) := by
  have inside := integerDraw_lt config source
  obtain ⟨-, small, -⟩ := Checked.integerSpan_bounds config
  obtain ⟨low, high⟩ := sum_within config inside
  rw [randomInteger_eq, Int32.toInt_add, Int.bmod_eq_of_le (by omega) (by omega),
    toInt_integerOffset config (by omega), Int.add_comm]

namespace Checked

variable {σ : Type}

/-- A natural number as an integer of 32 bits. -/
def toInteger (number : Nat) : Checked σ Int32 :=
  if (Int32.ofNat number).toInt = number then pure (Int32.ofNat number)
  else throw (.fault .overflow)

/-- An integer that is not negative as a natural number. -/
def toNatural (number : Int) : Checked σ Nat :=
  if (number.toNat : Int) = number then pure number.toNat else throw (.fault .overflow)

theorem toInteger_eq {number : Nat} (small : number < 2147483648) :
    (toInteger number : Checked σ Int32) = pure (Int32.ofNat number) :=
  if_pos (Int32.toInt_ofNat_of_lt (by omega))

theorem toNatural_eq {number : Int} (natural : 0 ≤ number) :
    (toNatural number : Checked σ Nat) = pure number.toNat :=
  if_pos (Int.toNat_of_nonneg natural)

/-- An integer without its remainder by a positive step. -/
def roundOffset (offset step : Int32) : Checked σ Int32 :=
  if 0 < step then subtractInteger offset (offset % step) else pure offset

theorem roundOffset_eq (config : Config) {draw : Nat} (small : draw < 2147483648) :
    (roundOffset (Int32.ofNat draw) config.integerStep : Checked σ Int32) =
      pure (config.integerOffset draw) := by
  have natural : 0 ≤ (Int32.ofNat draw).toInt := by
    rw [Int32.toInt_ofNat_of_lt (by omega)]
    exact Int.natCast_nonneg draw
  unfold roundOffset Config.integerOffset
  split
  · exact subtractInteger_remainder natural config.integerStep
  · rfl

/-- A random integer with every number on the way checked: the bound of the draw, the draw, its
difference with the remainder, and the sum. -/
def exactInteger (config : Config) : Checked ρ Int32 := do
  let bound ← toNatural (integerSpan config)
  let drawn ← drawBelow bound
  let drawn ← toInteger drawn
  let offset ← roundOffset drawn config.integerStep
  addInteger offset config.minInteger

theorem exactInteger_yields (config : Config) :
    (exactInteger config : Checked ρ Int32).Yields (PushLang.randomInteger config) := by
  intro source
  have inside := integerDraw_lt config source
  obtain ⟨positive, within, -⟩ := integerSpan_bounds config
  obtain ⟨low, high⟩ := sum_within config inside
  have small : integerDraw config source < 2147483648 := by omega
  have drawn : (drawBelow (integerSpan config).toNat : Checked ρ Nat) source =
      .ok (integerDraw config source) (below (integerSpan config).toNat source).2 :=
    Yields.drawBelow (by omega) source
  simp only [exactInteger, toNatural_eq (Int.le_of_lt positive), bind_apply, pure_apply, drawn,
    toInteger_eq small, roundOffset_eq config small, addInteger_eq low high]
  rfl

end Checked

/-- A random integer is the least one where the range is empty, and else lies from the least one to
below the upper end. Above the least one it is a multiple of a positive step. It comes about without
any number leaving its width. -/
theorem randomInteger_within (config : Config) (source : ρ) :
    let least := config.minInteger.toInt
    let upper := config.maxInteger.toInt
    let value := (randomInteger config source).1.toInt
    (upper ≤ least → value = least) ∧ (least < upper → least ≤ value ∧ value < upper) ∧
      (0 < config.integerStep.toInt →
        ∃ multiple : Nat, value - least = multiple * config.integerStep.toInt) ∧
      (Checked.exactInteger config : Checked ρ Int32).Yields (randomInteger config) := by
  intro least upper value
  have made : value = least + config.roundDown (integerDraw config source) :=
    toInt_randomInteger config source
  have inside := integerDraw_lt config source
  have rounded := config.roundDown_le (integerDraw config source)
  obtain ⟨-, -, span⟩ := Checked.integerSpan_bounds config
  refine ⟨fun empty => ?_, fun range => ?_, fun positive => ?_, Checked.exactInteger_yields config⟩
  · omega
  · omega
  · refine ⟨integerDraw config source / config.integerStep.toInt.toNat, ?_⟩
    have step : 0 < config.integerStep := Int32.lt_iff_toInt_lt.mpr (by simpa using positive)
    rw [made, Config.roundDown, if_pos step, Int.natCast_mul,
      Int.toNat_of_nonneg (Int.le_of_lt positive)]
    omega

/-- The last draw of the widest range, which is wider than any integer, with a step that does not
divide it. -/
theorem randomInteger_within_widest :
    let config : Config :=
      { minInteger := Int32.minValue, maxInteger := Int32.maxValue, integerStep := 1000000000 }
    let source : Script := { draws := [4294967295] }
    (randomInteger config source).1 = -147483648 ∧
      Int32.minValue.toInt ≤ (randomInteger config source).1.toInt ∧
      (randomInteger config source).1.toInt < Int32.maxValue.toInt ∧
      ∃ multiple : Nat,
        (randomInteger config source).1.toInt - Int32.minValue.toInt = multiple * 1000000000 := by
  intro config source
  obtain ⟨-, inside, multiples, -⟩ := randomInteger_within config source
  obtain ⟨low, high⟩ := inside (by decide)
  exact ⟨by decide, low, high, multiples (by decide)⟩

/-- An integer that the settings ask for: one of the range, and above the least one by a multiple of
a positive step. -/
structure Config.Offers (config : Config) (value : Int32) : Prop where
  low : config.minInteger.toInt ≤ value.toInt
  high : value.toInt < config.maxInteger.toInt
  step : config.integerStep.toInt ≤ 0 ∨
    config.integerStep.toInt ∣ value.toInt - config.minInteger.toInt

/-- How far an integer lies above the least one. -/
def Config.distance (config : Config) (value : Int32) : Nat :=
  (value.toInt - config.minInteger.toInt).toNat

/-- An integer that is asked for is as far above the least one as a draw that need not be
rounded. -/
theorem Config.Offers.roundDown_distance {config : Config} {value : Int32}
    (offered : config.Offers value) :
    config.roundDown (config.distance value) = config.distance value := by
  unfold Config.roundDown
  split
  · rename_i positive
    have stepPositive : 0 < config.integerStep.toInt := by
      simpa using Int32.lt_iff_toInt_lt.mp positive
    obtain nonpositive | divides := offered.step
    · omega
    · refine Nat.div_mul_cancel (Int.natCast_dvd_natCast.mp ?_)
      have low := offered.low
      rwa [Int.toNat_of_nonneg (Int.le_of_lt stepPositive), Config.distance,
        Int.toNat_of_nonneg (by omega)]
  · rfl

/-- Up to the largest integer above the least one, the distance is itself a draw. -/
theorem Config.Offers.distance_lt {config : Config} {value : Int32} (offered : config.Offers value)
    (near : value.toInt - config.minInteger.toInt < Int32.maxValue.toInt) :
    config.distance value < (Checked.integerSpan config).toNat := by
  have high := offered.high
  unfold Config.distance Checked.integerSpan
  omega

theorem randomInteger_of_distance {config : Config} {value : Int32}
    (offered : config.Offers value) {source rest : ρ}
    (drawn : below (Checked.integerSpan config).toNat source = (config.distance value, rest)) :
    randomInteger config source = (value, rest) := by
  have low := offered.low
  have draw : integerDraw config source = config.distance value := congrArg Prod.fst drawn
  have result := toInt_randomInteger config source
  rw [draw, offered.roundDown_distance, Config.distance, Int.toNat_of_nonneg (by omega)] at result
  have same : (randomInteger config source).1.toInt = value.toInt := by omega
  refine Prod.ext (Int32.toInt_inj.mp same) ?_
  rw [randomInteger_eq, drawn]

/-- However wide the range is, its span is cut to the largest integer, and so is the distance of a
random integer. -/
theorem randomInteger_near (config : Config) (source : ρ) :
    (randomInteger config source).1.toInt - config.minInteger.toInt < Int32.maxValue.toInt := by
  have inside := integerDraw_lt config source
  have rounded := config.roundDown_le (integerDraw config source)
  obtain ⟨-, small, -⟩ := Checked.integerSpan_bounds config
  have most : Int32.maxValue.toInt = 2147483647 := by decide
  rw [toInt_randomInteger config source]
  unfold Checked.integerSpan at inside
  omega

/-- An integer that the settings ask for is drawn, its distance from the least one being the draw,
exactly if that distance is below the largest integer. The others of a wider range are not drawn
from any source. -/
theorem randomInteger_covers_iff (config : Config) (value : Int32) (offered : config.Offers value) :
    let near := value.toInt - config.minInteger.toInt < Int32.maxValue.toInt
    ((∃ draw : Nat, draw < (Checked.integerSpan config).toNat ∧
      ∀ (ρ : Type) [RandomSource ρ] (source rest : ρ),
        below (Checked.integerSpan config).toNat source = (draw, rest) →
        randomInteger config source = (value, rest)) ↔ near) ∧
      (¬ near → ∀ (ρ : Type) [RandomSource ρ] (source : ρ),
        (randomInteger config source).1 ≠ value) := by
  intro near
  have missed (far : ¬ near) (ρ : Type) [RandomSource ρ] (source : ρ) :
      (randomInteger config source).1 ≠ value := by
    rintro rfl
    exact far (randomInteger_near config source)
  refine ⟨⟨?_, fun close => ?_⟩, missed⟩
  · rintro ⟨draw, inside, drawn⟩
    have reached := randomInteger_near config ({ draws := [draw] } : Script)
    rwa [drawn Script _ _ (Script.below_first inside [] [])] at reached
  · exact ⟨config.distance value, offered.distance_lt close,
      fun ρ _ source rest drawn => randomInteger_of_distance offered drawn⟩

/-- An integer of a range with a step, and one far up in the widest range. -/
theorem randomInteger_covers_iff_stepped :
    let stepped : Config := { integerStep := 3 }
    let widest : Config := { minInteger := Int32.minValue, maxInteger := Int32.maxValue }
    let script (draw : Nat) : Script := { draws := [draw] }
    stepped.Offers 2 ∧ (∃ draw < 20, (randomInteger stepped (script draw)).1 = 2) ∧
      widest.Offers (-2) ∧ ∃ draw < 2147483647, (randomInteger widest (script draw)).1 = -2 := by
  intro stepped widest script
  have few : (Checked.integerSpan stepped).toNat = 20 := by decide
  have most : (Checked.integerSpan widest).toNat = 2147483647 := by decide
  have offered : stepped.Offers 2 := ⟨by decide, by decide, .inr (by decide)⟩
  have high : widest.Offers (-2) := ⟨by decide, by decide, .inr (by decide)⟩
  obtain ⟨draw, inside, drawn⟩ := (randomInteger_covers_iff stepped 2 offered).1.mpr (by decide)
  obtain ⟨other, within, made⟩ := (randomInteger_covers_iff widest (-2) high).1.mpr (by decide)
  refine ⟨offered, ⟨draw, by rwa [few] at inside, ?_⟩, high, other, by rwa [most] at within, ?_⟩
  · exact congrArg Prod.fst (drawn Script (script draw) _ (Script.below_first inside [] []))
  · exact congrArg Prod.fst (made Script (script other) _ (Script.below_first within [] []))

/-- The last integer of the widest range is asked for and never drawn. -/
theorem randomInteger_misses_last :
    let config : Config := { minInteger := Int32.minValue, maxInteger := Int32.maxValue }
    config.Offers 2147483646 ∧ ¬ ∃ draw : Nat, draw < (Checked.integerSpan config).toNat ∧
      (randomInteger config ({ draws := [draw] } : Script)).1 = 2147483646 := by
  intro config
  refine ⟨⟨by decide, by decide, .inr (by decide)⟩, ?_⟩
  rintro ⟨draw, -, drawn⟩
  have near := randomInteger_near config ({ draws := [draw] } : Script)
  rw [drawn] at near
  exact absurd near (by decide)

end PushLang
