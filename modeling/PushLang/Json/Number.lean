import PushLang.Json.Value

/-! Numbers of JSON texts. Digits are gathered into a 64-bit significand; those that no longer fit
are dropped, and count for the exponent when they stand before the point. The significand is then
scaled by a power of ten in double precision. -/

namespace PushLang.Json

/-- Digits gathered so far: their value while it fits, the power of ten of its last digit, and
whether a digit was dropped. -/
structure Gathered where
  significand : Nat := 0
  exponent : Int := 0
  full : Bool := false

/-- Takes one digit. The power of ten changes by `kept` for a digit that fits and by `dropped` for
one that does not. -/
def Gathered.add (kept dropped : Int) (sum : Gathered) (digit : Char) : Gathered :=
  let next := sum.significand * 10 + (digit.toNat - '0'.toNat)
  if sum.full || UInt64.size ≤ next then
    { sum with exponent := sum.exponent + dropped, full := true }
  else { sum with significand := next, exponent := sum.exponent + kept }

/-- A number times a power of ten; none when it leaves the range of double precision. -/
def scaled? : Nat → Float → Int → Option Float
  | 0, _, _ => none
  | rounds + 1, value, exponent =>
    let power (count : Nat) : Float := Float.ofScientific 1 false count
    if exponent.natAbs ≤ 308 then
      if 0 ≤ exponent then
        let product := value * power exponent.toNat
        if product.isInf then none else some product
      else some (value / power exponent.natAbs)
    else if value == 0 then some value
    else if 0 ≤ exponent then none
    else scaled? rounds (value / power 308) (exponent + 308)

/-- The number with a sign, a significand and a power of ten. A few rounds of scaling take every
significand to zero. -/
def Number.ofScaled (negative : Bool) (significand : Nat) (exponent : Int) : Number :=
  match scaled? 8 (Float.ofNat significand) exponent with
  | none => .overflow
  | some value => .real (if negative then -value else value)

/-- A number without point and exponent: an integer if it fits in 64 bits with its sign, and else
scaled. -/
def Number.ofGathered (negative : Bool) (digits : Gathered) : Number :=
  if digits.full then .ofScaled negative digits.significand digits.exponent
  else if !negative then .integer digits.significand
  else if digits.significand = 0 ∨ UInt64.size / 2 < digits.significand then
    .ofScaled true digits.significand 0
  else .integer (-(digits.significand : Int))

/-- Digits at the front of a text, at least one, and what follows. -/
def digits? (text : List Char) : Option (List Char × List Char) :=
  let digits := text.takeWhile Char.isDigit
  if digits.isEmpty then none else some (digits, text.dropWhile Char.isDigit)

/-- The exponent at the front of a text, after its `e`, and what follows. -/
def exponent? (text : List Char) : Option (Int × List Char) :=
  let (negative, text) := match text with
    | '-' :: rest => (true, rest)
    | '+' :: rest => (false, rest)
    | rest => (false, rest)
  (digits? text).map fun (digits, rest) =>
    let magnitude : Int := Nat.ofDigitChars 10 digits 0
    (if negative then -magnitude else magnitude, rest)

/-- The point and digits at the front of a text, taken after the whole part, and what follows. -/
def fraction? (whole : Gathered) : List Char → Option (Gathered × Bool × List Char)
  | '.' :: text => (digits? text).map fun (digits, rest) =>
    (digits.foldl (Gathered.add (-1) 0) { whole with full := false }, true, rest)
  | text => some (whole, false, text)

/-- The number at the front of a text and what follows. The whole part has no leading zero. -/
def number? (text : List Char) : Option (Number × List Char) := do
  let (negative, text) := match text with
    | '-' :: rest => (true, rest)
    | rest => (false, rest)
  let (whole, text) ← digits? text
  guard (whole.head? ≠ some '0' ∨ whole.length = 1)
  let (gathered, pointed, text) ← fraction? (whole.foldl (Gathered.add 0 1) {}) text
  match text with
  | c :: rest =>
    if c = 'e' ∨ c = 'E' then
      let (exponent, rest) ← exponent? rest
      return (.ofScaled negative gathered.significand (gathered.exponent + exponent), rest)
  | [] => pure ()
  if pointed then return (.ofScaled negative gathered.significand gathered.exponent, text)
  return (.ofGathered negative gathered, text)

end PushLang.Json
