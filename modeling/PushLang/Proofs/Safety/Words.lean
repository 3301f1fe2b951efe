import PushLang.Proofs.Safety.Checked

namespace PushLang.Checked

variable {σ : Type}

def toWord (number : Nat) : Checked σ Nat :=
  if (UInt64.ofNat number).toNat = number then pure number else throw (.fault .overflow)

def toSigned (number : Int) : Checked σ Int :=
  if (Int64.ofInt number).toInt = number then pure number else throw (.fault .overflow)

/-- The signed word with the bits of a word. -/
def signed (word : Nat) : Int := (Int64.ofNat word).toInt

theorem toWord_eq {number : Nat} (word : number < UInt64.size) :
    (toWord number : Checked σ Nat) = pure number :=
  if_pos (UInt64.toNat_ofNat_of_lt word)

theorem toWord_overflow {number : Nat} (large : UInt64.size ≤ number) :
    (toWord number : Checked σ Nat) = throw (.fault .overflow) := by
  refine if_neg fun same => ?_
  have small := UInt64.toNat_lt_size (UInt64.ofNat number)
  omega

theorem toSigned_eq {number : Int} (low : -9223372036854775808 ≤ number)
    (high : number < 9223372036854775808) :
    (toSigned number : Checked σ Int) = pure number :=
  if_pos (Int64.toInt_ofInt_of_le low high)

theorem toSigned_overflow {number : Int}
    (outside : number < -9223372036854775808 ∨ 9223372036854775808 ≤ number) :
    (toSigned number : Checked σ Int) = throw (.fault .overflow) := by
  refine if_neg fun same => ?_
  have low := Int64.le_toInt (Int64.ofInt number)
  have high := Int64.toInt_lt (Int64.ofInt number)
  omega

theorem signed_eq {word : Nat} (isWord : word < UInt64.size) :
    signed word = if word < UInt64.size / 2 then (word : Int) else (word : Int) - UInt64.size := by
  have words : UInt64.size = 18446744073709551616 := rfl
  have size : Int64.size = 18446744073709551616 := rfl
  rw [signed, Int64.toInt_ofNat', Int.bmod_def, size, words]
  omega

theorem signed_of_lower {word : Nat} (lower : word < UInt64.size / 2) : signed word = word := by
  rw [signed_eq (Nat.lt_of_lt_of_le lower (Nat.div_le_self _ _)), if_pos lower]

theorem signed_of_upper {word : Nat} (upper : UInt64.size / 2 ≤ word)
    (isWord : word < UInt64.size) :
    signed word = (word : Int) - UInt64.size := by
  rw [signed_eq isWord, if_neg (Nat.not_lt.mpr upper)]

end PushLang.Checked
