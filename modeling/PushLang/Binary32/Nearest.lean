/-! Magnitudes of single precision numbers. A magnitude is a significand times a power of two, and
every quotient of natural numbers has a nearest magnitude, a half going to the even significand. -/

namespace PushLang.Binary32

/-- A quotient rounded to the nearest natural number; a half goes to the even one. -/
def roundDiv (num den : Nat) : Nat :=
  let quotient := num / den
  let twice := 2 * (num % den)
  if twice < den then quotient else if den < twice then quotient + 1 else quotient + quotient % 2

/-- The bits of infinity; the bits of finite magnitudes are smaller. -/
def infinityBits : Nat := 0x7F800000

/-- The bits between the significands of one exponent and the next; it is also the leading digit
that they leave out. -/
def exponentStep : Nat := 0x800000

/-- The exponent of the last place of the magnitudes next to `num / den`. -/
def lastPlace (num den : Nat) : Int :=
  let guess : Int := (num.log2 : Int) - den.log2
  let reached := den <<< guess.toNat ≤ num <<< (-guess).toNat
  max ((if reached then guess else guess - 1) - 23) (-149)

/-- The bits of the magnitude nearest to `num / den`. Consecutive magnitudes have consecutive bits,
so a significand that rounds up to the next power of two needs no care. -/
def nearest (num den : Nat) : Nat :=
  if num = 0 then 0 else
    let place := lastPlace num den
    let significand := roundDiv (num <<< (-place).toNat) (den <<< place.toNat)
    min ((place + 149).toNat * exponentStep + significand) infinityBits

/-- The significand that the bits of a finite magnitude stand for. -/
def significand (bits : Nat) : Nat :=
  if bits < exponentStep then bits else exponentStep + bits % exponentStep

/-- The exponent of the last place of the magnitude with these bits. -/
def exponent (bits : Nat) : Int := (max (bits / exponentStep) 1 : Nat) - 150

end PushLang.Binary32
