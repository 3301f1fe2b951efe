import PushLang.Numeral.Real

/-! Writing single precision numbers. The numeral has the fewest digits that read back as the same
number, and of those the digits nearest to it. -/

namespace PushLang.Numeral

/-- Where the digits of a numeral go. -/
structure Style where
  /-- Whether a number whose first digit stands at this power of ten is written without an
  exponent. -/
  positional : Int → Bool
  /-- Fewest digits after the point in a numeral without an exponent. -/
  fraction : Nat

/-- Literals keep a point or an exponent: a plain numeral from `0.0001` to below `1e16`, else an
exponent. -/
def literal : Style := ⟨fun power => -4 ≤ power && power ≤ 15, 1⟩

/-- Numbers listed on a stack never have an exponent, and whole ones no point. -/
def plain : Style := ⟨fun _ => true, 0⟩

/-- Digits with a point and the zeros that their place asks for. -/
def Style.positionalText (style : Style) (digits : List Char) (exponent : Int) : List Char :=
  let wholeLength := digits.length + exponent
  let zeros (n : Nat) := List.replicate n '0'
  if 0 ≤ exponent then
    digits ++ zeros exponent.toNat ++ (if style.fraction = 0 then []
      else '.' :: zeros style.fraction)
  else if 0 < wholeLength then
    digits.take wholeLength.toNat ++ '.' :: digits.drop wholeLength.toNat
  else ['0', '.'] ++ zeros (-wholeLength).toNat ++ digits

/-- One digit, the others after a point, and the power of ten of the first. -/
def exponentText (digits : List Char) (exponent : Int) : List Char :=
  let power := digits.length + exponent - 1
  let others := digits.drop 1
  digits.take 1 ++ (if others.isEmpty then [] else '.' :: others) ++ 'e' :: ofInt power

/-- The text of a scaled number. -/
def Style.text (style : Style) (value : Scaled) : List Char :=
  let digits := ofNat value.digits
  if style.positional (digits.length + value.exponent - 1) then
    style.positionalText digits value.exponent
  else exponentText digits value.exponent

/-- The two multiples of a power of ten next to a magnitude, the nearer one first; a tie goes to the
larger. -/
def neighbours (bits : Nat) (power : Int) : List Scaled :=
  let binary := Binary32.exponent bits
  let num := (Binary32.significand bits <<< binary.toNat) * Nat.pow 10 (-power).toNat
  let den := Nat.pow 10 power.toNat <<< (-binary).toNat
  let below : Scaled := ⟨num / den, power⟩
  let above : Scaled := ⟨num / den + 1, power⟩
  if 2 * (num % den) < den then [below, above] else [above, below]

/-- A power of ten above every number with these bits, hence one where only a single digit is
left. -/
def topPower (bits : Nat) : Int :=
  ((Binary32.significand bits).log2 + 1 + Binary32.exponent bits) * 30103 / 100000 + 1

/-- The magnitude written out to its last digit. -/
def allDigits (bits : Nat) : Scaled :=
  let binary := Binary32.exponent bits
  ⟨(Binary32.significand bits <<< binary.toNat) * Nat.pow 5 (-binary).toNat,
    -((-binary).toNat : Int)⟩

/-- The scaled numbers tried for a magnitude, from one digit upwards. -/
def candidates (bits : Nat) : List Scaled :=
  (List.range 12).flatMap fun (step : Nat) => neighbours bits (topPower bits - step)

/-- The numeral of a finite number: the first candidate whose text reads back, else all digits. -/
def finiteText (style : Style) (x : Binary32) : List Char :=
  let bits := x.magnitude
  let sign := if x.isNegative then ['-'] else []
  let text (value : Scaled) := sign ++ style.text value
  if bits = 0 then text ⟨0, 0⟩
  else ((candidates bits).map text |>.find? fun numeral => real? numeral == some x).getD
    (text (allDigits bits))

/-- The text of a number in the given style. -/
def ofBinary32 (style : Style) (x : Binary32) : List Char :=
  if x.isNaN then ['N', 'a', 'N']
  else if x.isInfinite then (if x.isNegative then ['-'] else []) ++ ['i', 'n', 'f']
  else finiteText style x

end PushLang.Numeral
