import PushLang.Binary32.Basic

namespace PushLang.Binary32

/-- Extends an operation on numbers to NaNs. -/
def onNumbers (op : Binary32 → Binary32 → Binary32) (x y : Binary32) : Binary32 :=
  if x.isNaN then x else if y.isNaN then y else op x y

/-- The sum of two numbers. A zero sum is negative only if both of them are, and opposite infinities
have none. -/
def sum (x y : Binary32) : Binary32 :=
  if x.isInfinite then if y.isInfinite && x != y then invalid else x
  else if y.isInfinite then y
  else
    let total := x.units + y.units
    if total = 0 then ofMagnitude (x.isNegative && y.isNegative) 0
    else ofMagnitude (total < 0) (nearest total.natAbs unitsOfOne)

def signsDiffer (x y : Binary32) : Bool := x.isNegative != y.isNegative

/-- The product of two numbers. An infinity and a zero have none. -/
def product (x y : Binary32) : Binary32 :=
  if x.isInfinite || y.isInfinite then
    if x.isZero || y.isZero then invalid else infinity (signsDiffer x y)
  else ofMagnitude (signsDiffer x y) (nearest (x.units * y.units).natAbs (unitsOfOne * unitsOfOne))

/-- The quotient of two numbers. Two zeros have none, nor two infinities. -/
def quotient (x y : Binary32) : Binary32 :=
  if (x.isInfinite && y.isInfinite) || (x.isZero && y.isZero) then invalid
  else if x.isInfinite || y.isZero then infinity (signsDiffer x y)
  else if y.isInfinite then ofMagnitude (signsDiffer x y) 0
  else ofMagnitude (signsDiffer x y) (nearest x.units.natAbs y.units.natAbs)

/-- The remainder of a truncated division: the difference of `x` and a whole multiple of `y`,
smaller than `y` in magnitude and with the sign of `x`. No remainder exists by zero or of an
infinity; one by an infinity is the dividend. -/
def truncatedRest (x y : Binary32) : Binary32 :=
  if x.isInfinite || y.isZero then invalid
  else if y.isInfinite then x
  else ofMagnitude x.isNegative (nearest (x.units.natAbs % y.units.natAbs) unitsOfOne)

def add : Binary32 → Binary32 → Binary32 := onNumbers sum
def sub : Binary32 → Binary32 → Binary32 := onNumbers fun x y => sum x (-y)
def mul : Binary32 → Binary32 → Binary32 := onNumbers product
def div : Binary32 → Binary32 → Binary32 := onNumbers quotient
def remainder : Binary32 → Binary32 → Binary32 := onNumbers truncatedRest

instance : Add Binary32 := ⟨add⟩
instance : Sub Binary32 := ⟨sub⟩
instance : Mul Binary32 := ⟨mul⟩
instance : Div Binary32 := ⟨div⟩
instance : Mod Binary32 := ⟨remainder⟩

/-- The smaller of two numbers: the second one of equals, the other one of a number and a NaN, and
the first of two NaNs. -/
def minimum (x y : Binary32) : Binary32 := if y.isNaN || x < y then x else y

/-- The larger of two numbers: the second one of equals, the other one of a number and a NaN, and
the first of two NaNs. -/
def maximum (x y : Binary32) : Binary32 := if y.isNaN || y < x then x else y

end PushLang.Binary32
