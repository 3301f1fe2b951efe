import PushLang.Builtin.Operand

namespace PushLang

inductive IntegerOp where
  | add | sub | mul | div | rem | pow | log
  | eq | gt | lt | min | max
  | abs | neg | ln
  | fromFloat | fromBoolean
deriving Repr, DecidableEq

namespace IntegerOp

def all : List IntegerOp :=
  [.add, .sub, .mul, .div, .rem, .pow, .log, .eq, .gt, .lt, .min, .max, .abs, .neg, .ln, .fromFloat,
    .fromBoolean]

def name : IntegerOp → String
  | .add => "integer.+"
  | .sub => "integer.-"
  | .mul => "integer.*"
  | .div => "integer./"
  | .rem => "integer.%"
  | .pow => "integer.pow"
  | .log => "integer.log"
  | .eq => "integer.="
  | .gt => "integer.>"
  | .lt => "integer.<"
  | .min => "integer.min"
  | .max => "integer.max"
  | .abs => "integer.abs"
  | .neg => "integer.neg"
  | .ln => "integer.ln"
  | .fromFloat => "integer.fromfloat"
  | .fromBoolean => "integer.fromboolean"

/-- The power of two integers, cut to whole numbers in range. -/
def power (a b : Int32) : Int32 := (Float.pow a.toFloat b.toFloat).toInt32

/-- The natural logarithm, cut to whole numbers in range. -/
def logarithm (a : Int32) : Int32 := a.toFloat.log.toInt32

/-- The logarithm of `a` to the base `b`, cut to whole numbers in range. -/
def logarithmTo (a b : Int32) : Int32 := (a.toFloat.log / b.toFloat.log).toInt32

def combine (op : Int32 → Int32 → Int32) : Operation := .binary .integer .integer op

def compare (test : Int32 → Int32 → Bool) : Operation := .binary .integer .boolean test

def change (op : Int32 → Int32) : Operation := .unary .integer .integer op

def operation : IntegerOp → Operation
  | .add => combine (· + ·)
  | .sub => combine (· - ·)
  | .mul => combine (· * ·)
  | .div => combine fun a b => if b = 0 then 0 else a / b
  | .rem => combine fun a b => if b = 0 then 0 else a % b
  | .pow => combine power
  | .log => combine logarithmTo
  | .eq => compare (· = ·)
  | .gt => compare (· > ·)
  | .lt => compare (· < ·)
  | .min => combine fun a b => if b < a then b else a
  | .max => combine fun a b => if a < b then b else a
  | .abs => change fun a => if a < 0 then -a else a
  | .neg => change (- ·)
  | .ln => change logarithm
  | .fromFloat => .unary .float .integer Binary32.toInt32
  | .fromBoolean => .unary .boolean .integer fun a => if a then 1 else 0

end IntegerOp

end PushLang
