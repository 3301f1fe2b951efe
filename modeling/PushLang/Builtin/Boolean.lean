import PushLang.Builtin.Operand

namespace PushLang

inductive BooleanOp where
  | eq | not | and | or | xor
  | fromInteger | fromFloat
deriving Repr, DecidableEq

namespace BooleanOp

def all : List BooleanOp := [.eq, .not, .and, .or, .xor, .fromInteger, .fromFloat]

def name : BooleanOp → String
  | .eq => "boolean.="
  | .not => "boolean.not"
  | .and => "boolean.and"
  | .or => "boolean.or"
  | .xor => "boolean.xor"
  | .fromInteger => "boolean.frominteger"
  | .fromFloat => "boolean.fromfloat"

def combine (op : Bool → Bool → Bool) : Operation := .binary .boolean .boolean op

def operation : BooleanOp → Operation
  | .eq => combine (· == ·)
  | .not => .unary .boolean .boolean fun a => !a
  | .and => combine (· && ·)
  | .or => combine (· || ·)
  | .xor => combine (· ^^ ·)
  | .fromInteger => .unary .integer .boolean fun a => a != 0
  | .fromFloat => .unary .float .boolean fun a => !a.isZero

end BooleanOp

end PushLang
