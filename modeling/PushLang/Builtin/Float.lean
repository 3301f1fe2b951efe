import PushLang.Binary32.Elementary
import PushLang.Builtin.Operand

namespace PushLang

inductive FloatOp where
  | add | sub | mul | div | rem | pow | log
  | eq | gt | lt | min | max
  | sin | cos | tan | exp | abs | neg | ln
  | fromInteger | fromBoolean
deriving Repr, DecidableEq

namespace FloatOp

def all : List FloatOp :=
  [.add, .sub, .mul, .div, .rem, .pow, .log, .eq, .gt, .lt, .min, .max, .sin, .cos, .tan, .exp,
    .abs, .neg, .ln, .fromInteger, .fromBoolean]

def name : FloatOp → String
  | .add => "float.+"
  | .sub => "float.-"
  | .mul => "float.*"
  | .div => "float./"
  | .rem => "float.%"
  | .pow => "float.pow"
  | .log => "float.log"
  | .eq => "float.="
  | .gt => "float.>"
  | .lt => "float.<"
  | .min => "float.min"
  | .max => "float.max"
  | .sin => "float.sin"
  | .cos => "float.cos"
  | .tan => "float.tan"
  | .exp => "float.exp"
  | .abs => "float.abs"
  | .neg => "float.neg"
  | .ln => "float.ln"
  | .fromInteger => "float.frominteger"
  | .fromBoolean => "float.fromboolean"

def combine (op : Binary32 → Binary32 → Binary32) : Operation := .binary .float .float op

def compare (test : Binary32 → Binary32 → Bool) : Operation := .binary .float .boolean test

def change (op : Binary32 → Binary32) : Operation := .unary .float .float op

def operation : FloatOp → Operation
  | .add => combine (· + ·)
  | .sub => combine (· - ·)
  | .mul => combine (· * ·)
  | .div => combine fun a b => if b.isZero then 0 else a / b
  | .rem => combine fun a b => if b.isZero then 0 else a % b
  | .pow => combine Binary32.pow
  | .log => combine Binary32.log
  | .eq => compare Binary32.isEqual
  | .gt => compare fun a b => b.isBelow a
  | .lt => compare Binary32.isBelow
  | .min => combine Binary32.minimum
  | .max => combine Binary32.maximum
  | .sin => change Binary32.sin
  | .cos => change Binary32.cos
  | .tan => change Binary32.tan
  | .exp => change Binary32.exp
  | .abs => change Binary32.abs
  | .neg => change (- ·)
  | .ln => change Binary32.ln
  | .fromInteger => .unary .integer .float fun a => Binary32.ofInt a.toInt
  | .fromBoolean => .unary .boolean .float fun a => if a then 1 else 0

end FloatOp

end PushLang
