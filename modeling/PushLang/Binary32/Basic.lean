import PushLang.Binary32.Nearest

/-! Single precision numbers as their bits. Numbers are compared by value, so the two zeros are
equal and a NaN is equal to nothing, while equality of bits tells all of them apart, even a NaN from
one of the other sign. -/

namespace PushLang

structure Binary32 where
  bits : UInt32
deriving DecidableEq, Inhabited

namespace Binary32

/-- The bit that is set in a negative number. -/
def signBit : Nat := 0x80000000

/-- The bits of a number without its sign. -/
def magnitude (x : Binary32) : Nat := x.bits.toNat % signBit

/-- Whether the sign is set; it tells `-0.0` from `0.0`, and one NaN from another. -/
def isNegative (x : Binary32) : Bool := signBit ≤ x.bits.toNat

/-- The number with this sign and the magnitude of these bits. -/
def ofMagnitude (negative : Bool) (bits : Nat) : Binary32 :=
  ⟨UInt32.ofNat (if negative then signBit + bits else bits)⟩

def isNaN (x : Binary32) : Bool := infinityBits < x.magnitude
def isInfinite (x : Binary32) : Bool := x.magnitude == infinityBits
def isFinite (x : Binary32) : Bool := x.magnitude < infinityBits
def isZero (x : Binary32) : Bool := x.magnitude == 0

def nan (negative : Bool) : Binary32 := ofMagnitude negative 0x7FC00000

/-- The result of an operation that has none, such as `0 / 0`. -/
def invalid : Binary32 := nan true

/-- Positive or negative infinity. -/
def infinity (negative : Bool) : Binary32 := ofMagnitude negative infinityBits

def largest : Binary32 := ofMagnitude false (infinityBits - 1)

def abs (x : Binary32) : Binary32 := ofMagnitude false x.magnitude
def neg (x : Binary32) : Binary32 := ofMagnitude (!x.isNegative) x.magnitude

instance : Neg Binary32 := ⟨neg⟩

/-- The value of a finite number, counted in the least positive one; infinities lie beyond all of
them. -/
def units (x : Binary32) : Int :=
  let size := significand x.magnitude <<< (exponent x.magnitude + 149).toNat
  if x.isNegative then -size else size

/-- As many units as there are in one. -/
def unitsOfOne : Nat := 1 <<< 149

def isEqual (x y : Binary32) : Bool := !x.isNaN && !y.isNaN && x.units == y.units

/-- Whether the value of a number is less than that of another. -/
def isBelow (x y : Binary32) : Bool := !x.isNaN && !y.isNaN && x.units < y.units

instance : LT Binary32 := ⟨fun x y => x.isBelow y = true⟩

instance (x y : Binary32) : Decidable (x < y) := inferInstanceAs (Decidable (x.isBelow y = true))

def ofInt (value : Int) : Binary32 := ofMagnitude (value < 0) (nearest value.natAbs 1)

/-- The number nearest to a decimal one: `digits` with the point moved by `places`, to the left if
`down` is set. -/
def ofDecimal (digits : Nat) (down : Bool) (places : Nat) : Binary32 :=
  ofMagnitude false (if down then nearest digits (Nat.pow 10 places)
    else nearest (digits * Nat.pow 10 places) 1)

instance {n : Nat} : OfNat Binary32 n := ⟨ofInt n⟩

instance : OfScientific Binary32 := ⟨ofDecimal⟩

/-- The whole part of a number between two bounds; a NaN counts as zero. -/
def wholeWithin (low high : Int) (x : Binary32) : Int :=
  max low (min high (if x.isNaN then 0 else x.units.tdiv unitsOfOne))

def toInt32 (x : Binary32) : Int32 :=
  Int32.ofInt (x.wholeWithin Int32.minValue.toInt Int32.maxValue.toInt)

def toUInt64 (x : Binary32) : UInt64 := UInt64.ofNat (x.wholeWithin 0 (UInt64.size - 1)).toNat

end Binary32

end PushLang
