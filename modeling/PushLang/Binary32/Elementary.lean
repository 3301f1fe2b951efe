import PushLang.Binary32.Arithmetic

namespace PushLang.Binary32

def toDouble (x : Binary32) : Float := (Float32.ofBits x.bits).toFloat

def ofDouble (value : Float) : Binary32 :=
  let single := value.toFloat32
  if single.isNaN then invalid else ⟨single.toBits⟩

def viaDouble (f : Float → Float) (x : Binary32) : Binary32 :=
  if x.isNaN then x else ofDouble (f x.toDouble)

def sin : Binary32 → Binary32 := viaDouble Float.sin
def cos : Binary32 → Binary32 := viaDouble Float.cos
def tan : Binary32 → Binary32 := viaDouble Float.tan
def exp : Binary32 → Binary32 := viaDouble Float.exp
def ln : Binary32 → Binary32 := viaDouble Float.log

def isOdd (x : Binary32) : Bool := x.isFinite && x.units.natAbs % (2 * unitsOfOne) == unitsOfOne

/-- A power. Every number to the zeroth is one, and one to every power, even with a NaN; else a NaN
is the result, which loses its sign in an odd power. -/
def pow (x y : Binary32) : Binary32 :=
  if y.isZero || x == 1 then 1
  else if x.isNaN then if y.isOdd then x.abs else x
  else if y.isNaN then y
  else ofDouble (Float.pow x.toDouble y.toDouble)

/-- The logarithm of `x` to the base `base`, as a quotient of rounded logarithms. -/
def log (x base : Binary32) : Binary32 := ln x / ln base

end PushLang.Binary32
