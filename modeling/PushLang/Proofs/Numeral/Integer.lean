import PushLang.Numeral.Integer

namespace PushLang.Numeral

theorem isDigit_of_mem_ofNat {n : Nat} {c : Char} (member : c ∈ ofNat n) : c.isDigit = true :=
  Nat.isDigit_of_mem_toDigits (by decide) (by decide) member

theorem ofNat_ne_nil (n : Nat) : ofNat n ≠ [] := Nat.toDigits_ne_nil

theorem ofDigitChars_ofNat (n : Nat) : Nat.ofDigitChars 10 (ofNat n) 0 = n :=
  Nat.ofDigitChars_ten_toDigits

theorem natural?_ofNat (n : Nat) : natural? (ofNat n) = some n := by
  have digits : (ofNat n).all Char.isDigit = true := List.all_eq_true.mpr fun _ =>
    isDigit_of_mem_ofNat
  simp [natural?, digits, ofNat_ne_nil, ofDigitChars_ofNat]

theorem splitSign_cons_digit {c : Char} (digit : c.isDigit = true) (rest : List Char) :
    splitSign (c :: rest) = (false, c :: rest) := by
  unfold splitSign
  split
  · rename_i same
    cases same
    exact absurd digit (by decide)
  · rename_i same
    cases same
    exact absurd digit (by decide)
  · rfl

theorem splitSign_ofNat (n : Nat) : splitSign (ofNat n) = (false, ofNat n) := by
  obtain ⟨first, rest, same⟩ := List.exists_cons_of_ne_nil (ofNat_ne_nil n)
  rw [same]
  exact splitSign_cons_digit (isDigit_of_mem_ofNat (n := n) (by simp [same])) rest

theorem integer?_ofInt (value : Int) : integer? (ofInt value) = some value := by
  cases value with
  | ofNat n => simp [integer?, ofInt, splitSign_ofNat, natural?_ofNat]
  | negSucc n =>
    simp only [integer?, ofInt, splitSign, natural?_ofNat]
    rfl

theorem toInt32?_toInt (value : Int32) : toInt32? value.toInt = some value := by
  have low : Int32.minValue.toInt ≤ value.toInt := value.minValue_le_toInt
  have high : value.toInt ≤ Int32.maxValue.toInt := value.toInt_le
  rw [toInt32?, if_pos ⟨low, high⟩, Int32.ofInt_toInt]

theorem int32?_ofInt (value : Int32) : int32? (ofInt value.toInt) = some value := by
  simp [int32?, integer?_ofInt, toInt32?_toInt]

theorem int32?_eq_none {text : List Char} {c : Char} (member : c ∈ text.tail)
    (other : c.isDigit = false) :
    int32? text = none := by
  have rest : c ∈ (splitSign text).2 := by
    unfold splitSign
    split
    · exact member
    · exact member
    · exact List.mem_of_mem_tail member
  have mixed : (splitSign text).2.all Char.isDigit = false :=
    List.all_eq_false.mpr ⟨c, rest, by simp [other]⟩
  simp [int32?, integer?, natural?, mixed]

theorem mem_ofInt {value : Int} {c : Char} (member : c ∈ ofInt value) :
    c.isDigit = true ∨ c = '-' := by
  cases value with
  | ofNat n => exact .inl (isDigit_of_mem_ofNat member)
  | negSucc n =>
    rcases List.mem_cons.mp member with sign | digit
    · exact .inr sign
    · exact .inl (isDigit_of_mem_ofNat digit)

end PushLang.Numeral
