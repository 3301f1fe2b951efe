import PushLang.Builtin.Operand

namespace PushLang

inductive CodeOp where
  | fromBoolean | fromInteger | fromFloat
  | eq
deriving Repr, DecidableEq

namespace CodeOp

def all : List CodeOp := [.fromBoolean, .fromInteger, .fromFloat, .eq]

def name : CodeOp → String
  | .fromBoolean => "code.fromboolean"
  | .fromInteger => "code.frominteger"
  | .fromFloat => "code.fromfloat"
  | .eq => "code.="

def operation : CodeOp → Operation
  | .fromBoolean => .unary .boolean .code .boolean
  | .fromInteger => .unary .integer .code .integer
  | .fromFloat => .unary .float .code .float
  | .eq => .binary .code .boolean fun a b => a = b

end CodeOp

end PushLang
