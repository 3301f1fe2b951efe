namespace PushLang.Numeral

/-- The digits of a natural number, without leading zeros. -/
def ofNat (n : Nat) : List Char := Nat.toDigits 10 n

/-- The digits of an integer after its sign; only a negative number has one. -/
def ofInt : Int → List Char
  | .ofNat n => ofNat n
  | .negSucc n => '-' :: ofNat (n + 1)

/-- A numeral's sign, read off its first character, and what follows it. -/
def splitSign : List Char → Bool × List Char
  | '-' :: rest => (true, rest)
  | '+' :: rest => (false, rest)
  | rest => (false, rest)

/-- At least one digit and nothing else. -/
def natural? (text : List Char) : Option Nat :=
  if text.isEmpty || !text.all Char.isDigit then none else some (Nat.ofDigitChars 10 text 0)

/-- An optional sign and digits. -/
def integer? (text : List Char) : Option Int :=
  let (negative, digits) := splitSign text
  (natural? digits).map fun magnitude => if negative then -(magnitude : Int) else magnitude

/-- An integer as a 32-bit one, if it fits. -/
def toInt32? (value : Int) : Option Int32 :=
  if Int32.minValue.toInt ≤ value ∧ value ≤ Int32.maxValue.toInt then some (Int32.ofInt value)
  else none

/-- An integer numeral whose value fits in 32 bits. -/
def int32? (text : List Char) : Option Int32 := (integer? text).bind toInt32?

/-- A numeral without a minus sign whose value fits in 64 bits. -/
def word64? (text : List Char) : Option Nat :=
  let digits := match text with
    | '+' :: rest => rest
    | rest => rest
  (natural? digits).bind fun value => if value < UInt64.size then some value else none

end PushLang.Numeral
