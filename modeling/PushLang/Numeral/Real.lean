import PushLang.Numeral.Integer
import PushLang.Binary32.Basic

/-! Reading decimal numerals as single precision numbers. The value is the nearest number; a numeral
may have a point, an exponent, or be one of the words for infinity and NaN. -/

namespace PushLang.Numeral

/-- A decimal magnitude: `digits` times ten to the `exponent`. -/
structure Scaled where
  digits : Nat
  exponent : Int
deriving Repr, DecidableEq

/-- An `e`, an optional sign and digits; nothing at all is the exponent zero. -/
def exponent? : List Char → Option Int
  | [] => some 0
  | c :: rest => if c = 'e' ∨ c = 'E' then integer? rest else none

/-- What follows the whole part: the digits after a point, if there is one, and the rest. -/
def splitFraction : List Char → List Char × List Char
  | '.' :: rest => (rest.takeWhile Char.isDigit, rest.dropWhile Char.isDigit)
  | rest => ([], rest)

/-- Digits with an optional point among or around them, then an optional exponent. -/
def scaled? (text : List Char) : Option Scaled :=
  let whole := text.takeWhile Char.isDigit
  let (fraction, rest) := splitFraction (text.dropWhile Char.isDigit)
  if whole.isEmpty && fraction.isEmpty then none
  else (exponent? rest).map fun exponent =>
    ⟨Nat.ofDigitChars 10 (whole ++ fraction) 0, exponent - fraction.length⟩

/-- The bits of the magnitude nearest to a scaled number. The two early answers keep powers of ten
small: with the first digit at or above ten to the 39th the value is infinite, with all digits below
ten to the minus 46th it is zero. -/
def Scaled.nearest (value : Scaled) : Nat :=
  let leading : Int := (Nat.toDigits 10 value.digits).length + value.exponent
  if value.digits = 0 ∨ leading ≤ -46 then 0
  else if 40 ≤ leading then Binary32.infinityBits
  else Binary32.nearest (value.digits * Nat.pow 10 value.exponent.toNat)
    (Nat.pow 10 (-value.exponent).toNat)

/-- The words for infinity and NaN, in any case. -/
def special? (text : List Char) (negative : Bool) : Option Binary32 :=
  let lower := text.map Char.toLower
  if lower = ['i', 'n', 'f'] ∨ lower = ['i', 'n', 'f', 'i', 'n', 'i', 't', 'y'] then
    some (Binary32.infinity negative)
  else if lower = ['n', 'a', 'n'] then some (Binary32.nan negative)
  else none

/-- A numeral of a single precision number: an optional sign, then a magnitude. -/
def real? (text : List Char) : Option Binary32 :=
  let (negative, rest) := splitSign text
  match scaled? rest with
  | some value => some (Binary32.ofMagnitude negative value.nearest)
  | none => special? rest negative

end PushLang.Numeral
