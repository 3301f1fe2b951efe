import PushLang.Proofs.Numeral.Layout

namespace PushLang.Numeral

/-- Whether a text is laid out from parts of the same value, marked if the style asks for a
fraction. -/
def Style.Writes (style : Style) (scaled : Scaled) (text : List Char) : Prop :=
  ∃ layout : Layout, text = layout.text ∧ layout.scaled.value = scaled.value ∧
    (style.fraction ≠ 0 → layout.IsMarked)

private theorem isDigit_of_mem_zeros (count : Nat) {c : Char}
    (member : c ∈ List.replicate count '0') :
    c.isDigit = true := by
  rw [List.eq_of_mem_replicate member]
  decide

private theorem writes_large (style : Style) (scaled : Scaled) (large : 0 ≤ scaled.exponent) :
    style.Writes scaled (style.positionalText (ofNat scaled.digits) scaled.exponent) := by
  let whole := ofNat scaled.digits ++ List.replicate scaled.exponent.toNat '0'
  let fraction := if style.fraction = 0 then none else some (List.replicate style.fraction '0')
  have digits : ∀ c ∈ whole ++ fraction.getD [], c.isDigit = true := by
    intro c member
    rcases List.mem_append.mp member with front | back
    · rcases List.mem_append.mp front with digit | zero
      · exact isDigit_of_mem_ofNat digit
      · exact isDigit_of_mem_zeros _ zero
    · by_cases plain : style.fraction = 0
      · simp [fraction, plain] at back
      · exact isDigit_of_mem_zeros style.fraction (by
          simpa only [fraction, if_neg plain, Option.getD_some] using back)
  let layout : Layout :=
    { whole, fraction, exponent := none, nonempty := by simp [whole, ofNat_ne_nil], digits }
  refine ⟨layout, ?_, ?_, ?_⟩
  · by_cases plain : style.fraction = 0 <;>
      simp [Style.positionalText, large, layout, Layout.text, Layout.tail, whole, fraction, plain]
  · have shift : (10 : ℚ) ^ scaled.exponent = 10 ^ scaled.exponent.toNat := by
      rw [← zpow_natCast, Int.toNat_of_nonneg large]
    by_cases plain : style.fraction = 0
    · simp [layout, Layout.scaled, whole, fraction, plain, Nat.ofDigitChars_append,
        ofDigitChars_ofNat, Nat.ofDigitChars_replicate_zero, Scaled.value, shift, mul_comm]
    · simp only [layout, Layout.scaled, whole, fraction, if_neg plain, Option.getD_some,
        Option.getD_none, Nat.ofDigitChars_append, ofDigitChars_ofNat,
        Nat.ofDigitChars_replicate_zero, Scaled.value, shift, List.length_replicate, zero_sub,
        zpow_neg, zpow_natCast, Nat.cast_mul, Nat.cast_pow, Nat.cast_ofNat]
      have scale : (10 : ℚ) ^ style.fraction ≠ 0 := by positivity
      field_simp
  · intro point
    simp [Layout.IsMarked, layout, fraction, point]

/-- Parts with the digits of a scaled number, up to leading zeros, have its value if the exponent
accounts for the fraction. -/
private theorem value_of_parts (scaled : Scaled) (layout : Layout) (zeros : Nat)
    (digits : layout.whole ++ layout.fraction.getD [] =
      List.replicate zeros '0' ++ ofNat scaled.digits)
    (exponent : layout.exponent.getD 0 - (layout.fraction.getD []).length = scaled.exponent) :
    layout.scaled.value = scaled.value := by
  simp only [Layout.scaled, Scaled.value, digits, exponent, Nat.ofDigitChars_append,
    Nat.ofDigitChars_replicate_zero, Nat.mul_zero, ofDigitChars_ofNat]

private theorem writes_small (style : Style) (scaled : Scaled) (small : scaled.exponent < 0) :
    style.Writes scaled (style.positionalText (ofNat scaled.digits) scaled.exponent) := by
  have notLarge : ¬ 0 ≤ scaled.exponent := by omega
  by_cases inside : 0 < (ofNat scaled.digits).length + scaled.exponent
  · -- The point stands among the digits.
    let front := ((ofNat scaled.digits).length + scaled.exponent).toNat
    have split : (ofNat scaled.digits).take front ++ (ofNat scaled.digits).drop front =
        ofNat scaled.digits :=
      List.take_append_drop _ _
    let layout : Layout :=
      { whole := (ofNat scaled.digits).take front
        fraction := some ((ofNat scaled.digits).drop front)
        exponent := none
        nonempty := by simp [front, ofNat_ne_nil, inside]
        digits := by
          intro c member
          rw [Option.getD_some, split] at member
          exact isDigit_of_mem_ofNat member }
    refine ⟨layout, ?_, value_of_parts scaled layout 0 (by simp [layout]) ?_, fun _ => .inl rfl⟩
    · simp [Style.positionalText, notLarge, inside, layout, Layout.text, Layout.tail, front]
    · simp only [layout, Option.getD_some, Option.getD_none, List.length_drop, front]
      omega
  · -- The digits stand behind the point and some zeros.
    let zeros := (-((ofNat scaled.digits).length + scaled.exponent)).toNat
    let layout : Layout :=
      { whole := ['0']
        fraction := some (List.replicate zeros '0' ++ ofNat scaled.digits)
        exponent := none
        nonempty := by simp
        digits := by
          intro c member
          rw [Option.getD_some, ← List.append_assoc] at member
          rcases List.mem_append.mp member with zero | digit
          · exact isDigit_of_mem_zeros (zeros + 1) (by simpa [List.replicate_succ] using zero)
          · exact isDigit_of_mem_ofNat digit }
    refine ⟨layout, ?_,
      value_of_parts scaled layout (zeros + 1) (by simp [layout, List.replicate_succ]) ?_,
      fun _ => .inl rfl⟩
    · simp [Style.positionalText, notLarge, inside, layout, Layout.text, Layout.tail, zeros]
    · simp only [layout, Option.getD_some, Option.getD_none, List.length_append,
        List.length_replicate, zeros]
      omega

private theorem writes_exponent (style : Style) (scaled : Scaled) :
    style.Writes scaled (exponentText (ofNat scaled.digits) scaled.exponent) := by
  obtain ⟨first, others, same⟩ := List.exists_cons_of_ne_nil (ofNat_ne_nil scaled.digits)
  let layout : Layout :=
    { whole := [first]
      fraction := if others.isEmpty then none else some others
      exponent := some (others.length + scaled.exponent)
      nonempty := by simp
      digits := by
        intro c member
        apply isDigit_of_mem_ofNat (n := scaled.digits)
        rw [same]
        cases others <;> simpa using member }
  have fraction : layout.fraction.getD [] = others := by
    cases others <;> simp [layout]
  have digits :
      layout.whole ++ layout.fraction.getD [] = List.replicate 0 '0' ++ ofNat scaled.digits := by
    rw [fraction, same]
    rfl
  refine ⟨layout, ?_, value_of_parts scaled layout 0 digits ?_, fun _ => .inr rfl⟩
  · cases others <;> simp [exponentText, same, layout, Layout.text, Layout.tail]
    congr 1
    ring
  · rw [fraction]
    simp [layout]

theorem Style.writes_text (style : Style) (scaled : Scaled) :
    style.Writes scaled (style.text scaled) := by
  simp only [Style.text]
  split
  · by_cases large : 0 ≤ scaled.exponent
    · exact writes_large style scaled large
    · exact writes_small style scaled (by omega)
  · exact writes_exponent style scaled

private theorem pow_length_le {digits : Nat} (positive : digits ≠ 0) :
    (10 : ℚ) ^ ((Nat.toDigits 10 digits).length - 1 : Int) ≤ digits := by
  have filled : 0 < (Nat.toDigits 10 digits).length := Nat.length_toDigits_pos
  have power : ((Nat.toDigits 10 digits).length : Int) - 1 =
    ((Nat.toDigits 10 digits).length - 1 : Nat) := by omega
  rw [power, zpow_natCast]
  by_cases single : (Nat.toDigits 10 digits).length - 1 = 0
  · rw [single, pow_zero]
    exact_mod_cast Nat.one_le_iff_ne_zero.mpr positive
  · have fewer :=
      Nat.length_toDigits_le_iff (b := 10) (n := digits) (by decide) (Nat.pos_of_ne_zero single)
    have : 10 ^ ((Nat.toDigits 10 digits).length - 1) ≤ digits := by
      by_contra less
      have := fewer.mpr (Nat.lt_of_not_le less)
      omega
    exact_mod_cast this

private theorem lt_pow_length (digits : Nat) :
    (digits : ℚ) < 10 ^ ((Nat.toDigits 10 digits).length : Int) := by
  rw [zpow_natCast]
  exact_mod_cast (Nat.length_toDigits_le_iff (by decide) Nat.length_toDigits_pos).mp (Nat.le_refl _)

/-- The leading digit of a finite magnitude stands where neither early answer applies. -/
private theorem leading_within (scaled : Scaled) (bits : Nat) (nonzero : scaled.digits ≠ 0)
    (positive : bits ≠ 0) (finite : bits < Binary32.infinityBits)
    (same : scaled.value = Binary32.value bits) :
    -46 < (Nat.toDigits 10 scaled.digits).length + scaled.exponent ∧
      (Nat.toDigits 10 scaled.digits).length + scaled.exponent < 40 := by
  have scale : (0 : ℚ) < 10 ^ scaled.exponent := by positivity
  constructor
  · by_contra tiny
    have below : scaled.value <
        10 ^ ((Nat.toDigits 10 scaled.digits).length + scaled.exponent) := by
      rw [zpow_add₀ (by norm_num), Scaled.value]
      exact mul_lt_mul_of_pos_right (lt_pow_length _) scale
    have power :
        (10 : ℚ) ^ ((Nat.toDigits 10 scaled.digits).length + scaled.exponent) ≤ 10 ^ (-46 : Int) :=
      zpow_le_zpow_right₀ (by norm_num) (by omega)
    have bound : (2 : ℚ) ^ (-149 : Int) ≤ scaled.value := same ▸ Binary32.least_le_value positive
    have : (2 : ℚ) ^ (-149 : Int) < 10 ^ (-46 : Int) := bound.trans_lt (below.trans_le power)
    norm_num at this
  · by_contra huge
    have above :
        10 ^ ((Nat.toDigits 10 scaled.digits).length - 1 + scaled.exponent) ≤ scaled.value := by
      rw [zpow_add₀ (by norm_num), Scaled.value]
      exact mul_le_mul_of_nonneg_right (pow_length_le nonzero) scale.le
    have power : (10 : ℚ) ^ (39 : Int) ≤
        10 ^ ((Nat.toDigits 10 scaled.digits).length - 1 + scaled.exponent) :=
      zpow_le_zpow_right₀ (by norm_num) (by omega)
    have bound : scaled.value < 2 ^ (128 : Int) := same ▸ Binary32.value_lt finite
    have : (10 : ℚ) ^ (39 : Int) < 2 ^ (128 : Int) := (power.trans above).trans_lt bound
    norm_num at this

/-- A scaled number that is a finite magnitude is rounded to just that. -/
theorem Scaled.nearest_of_value (scaled : Scaled) (bits : Nat)
    (finite : bits < Binary32.infinityBits) (same : scaled.value = Binary32.value bits) :
    scaled.nearest = bits := by
  by_cases zero : scaled.digits = 0
  · have none : bits = 0 := Binary32.bits_of_value_zero (by rw [← same, Scaled.value, zero]; simp)
    simp [Scaled.nearest, zero, none]
  · have positive : bits ≠ 0 := by
      rintro rfl
      have : scaled.value ≠ 0 := mul_ne_zero (by exact_mod_cast zero) (by positivity)
      exact this (by rw [same]; simp [Binary32.value, Binary32.significand, Binary32.exponentStep])
    obtain ⟨notTiny, notHuge⟩ := leading_within scaled bits zero positive finite same
    have quotient : ((scaled.digits * Nat.pow 10 scaled.exponent.toNat : Nat) : ℚ) /
        (Nat.pow 10 (-scaled.exponent).toNat : Nat) = Binary32.value bits := by
      rw [← same, Scaled.value, Binary32.zpow_eq_div (by norm_num) scaled.exponent]
      push_cast [Nat.pow_eq]
      ring
    simp only [Scaled.nearest, zero, Int.not_le.mpr notTiny, Int.not_le.mpr notHuge, or_self,
      if_false]
    exact Binary32.nearest_of_value _ _ _ (Nat.pow_pos (by decide)) finite quotient

theorem value_allDigits (bits : Nat) : (allDigits bits).value = Binary32.value bits := by
  have fives :
    (10 : ℚ) ^ (-((-Binary32.exponent bits).toNat : Int)) * 5 ^ (-Binary32.exponent bits).toNat =
      1 / 2 ^ (-Binary32.exponent bits).toNat := by
    rw [zpow_neg, zpow_natCast, show (10 : ℚ) = 2 * 5 by norm_num, mul_pow]
    field_simp
  rw [Binary32.value, Binary32.zpow_eq_div two_ne_zero, allDigits, Scaled.value]
  push_cast [Nat.shiftLeft_eq, Nat.pow_eq]
  rw [mul_assoc, mul_comm _ ((10 : ℚ) ^ _), fives]
  ring

theorem ofMagnitude_magnitude (x : Binary32) :
    Binary32.ofMagnitude x.isNegative x.magnitude = x := by
  obtain ⟨bits⟩ := x
  have small := bits.toNat_lt
  simp only [Binary32.ofMagnitude, Binary32.isNegative, Binary32.magnitude, Binary32.signBit]
  congr 1
  rw [← UInt32.toNat_inj, UInt32.toNat_ofNat']
  by_cases negative : 2147483648 ≤ bits.toNat
  · simp only [negative, decide_true, if_true]
    omega
  · simp only [negative, decide_false, Bool.false_eq_true, if_false]
    omega

theorem real?_of_writes {style : Style} {scaled : Scaled} {text : List Char} (x : Binary32)
    (finite : x.isFinite = true) (written : style.Writes scaled text)
    (same : scaled.value = Binary32.value x.magnitude) :
    real? ((if x.isNegative then ['-'] else []) ++ text) = some x := by
  obtain ⟨layout, rfl, value, _⟩ := written
  have nearest : layout.scaled.nearest = x.magnitude :=
    Scaled.nearest_of_value _ _ (by simpa [Binary32.isFinite] using finite) (value.trans same)
  have sign : splitSign ((if x.isNegative then ['-'] else []) ++ layout.text) =
      (x.isNegative, layout.text) := by
    cases x.isNegative with
    | true => rfl
    | false => exact layout.splitSign_text
  simp only [real?, sign, layout.scaled?_text, nearest, ofMagnitude_magnitude]

/-- The numeral is the signed text of a scaled number, which reads back or has the value written
out. -/
private theorem finiteText_eq (style : Style) (x : Binary32) :
    ∃ scaled, finiteText style x = (if x.isNegative then ['-'] else []) ++ style.text scaled ∧
      (real? (finiteText style x) = some x ∨ scaled.value = Binary32.value x.magnitude) := by
  simp only [finiteText]
  split
  · rename_i zero
    refine ⟨_, rfl, .inr ?_⟩
    rw [zero]
    simp [Scaled.value, Binary32.value, Binary32.significand, Binary32.exponentStep]
  · cases found : ((candidates x.magnitude).map fun value =>
        (if x.isNegative then ['-'] else []) ++ style.text value).find? fun numeral =>
          real? numeral == some x with
    | some numeral =>
      obtain ⟨scaled, _, same⟩ := List.mem_map.mp (List.mem_of_find?_eq_some found)
      exact ⟨scaled, same.symm, .inl (by simpa using List.find?_some found)⟩
    | none => exact ⟨_, rfl, .inr (value_allDigits x.magnitude)⟩

theorem real?_finiteText (style : Style) (x : Binary32) (finite : x.isFinite = true) :
    real? (finiteText style x) = some x := by
  obtain ⟨scaled, shape, reads | same⟩ := finiteText_eq style x
  · exact reads
  · rw [shape]
    exact real?_of_writes x finite (style.writes_text scaled) same

theorem ofBinary32_finite (style : Style) (x : Binary32) (finite : x.isFinite = true) :
    ofBinary32 style x = finiteText style x := by
  have bound : x.magnitude < Binary32.infinityBits := by simpa [Binary32.isFinite] using finite
  have notNaN : x.isNaN = false := by simpa [Binary32.isNaN] using bound.le
  have notInfinite : x.isInfinite = false := by simpa [Binary32.isInfinite] using bound.ne
  simp [ofBinary32, notNaN, notInfinite]

theorem real?_ofBinary32 (style : Style) (x : Binary32) (finite : x.isFinite = true) :
    real? (ofBinary32 style x) = some x := by
  rw [ofBinary32_finite style x finite]
  exact real?_finiteText style x finite

theorem mem_ofBinary32 {style : Style} {x : Binary32} (finite : x.isFinite = true) {c : Char}
    (member : c ∈ ofBinary32 style x) : c.isDigit = true ∨ c = '.' ∨ c = 'e' ∨ c = '-' := by
  rw [ofBinary32_finite style x finite] at member
  obtain ⟨scaled, shape, _⟩ := finiteText_eq style x
  obtain ⟨layout, same, _⟩ := style.writes_text scaled
  rw [shape, same] at member
  rcases List.mem_append.mp member with sign | rest
  · split at sign
    · exact .inr (.inr (.inr (by simpa using sign)))
    · simp at sign
  · exact layout.mem_text rest

/-- A literal is never an integer: a point or an exponent tells it from one. -/
theorem int32?_literal {x : Binary32} (finite : x.isFinite = true) :
    int32? (ofBinary32 literal x) = none := by
  rw [ofBinary32_finite literal x finite]
  obtain ⟨scaled, shape, _⟩ := finiteText_eq literal x
  obtain ⟨layout, same, _, marked⟩ := literal.writes_text scaled
  obtain ⟨c, member, other⟩ := (marked (by decide)).exists_mem_tail
  obtain ⟨first, others, whole⟩ := List.exists_cons_of_ne_nil layout.nonempty
  refine int32?_eq_none (c := c) ?_ other
  rw [shape, same, Layout.text, whole]
  split <;> simp [member]

end PushLang.Numeral
