import PushLang.Builtin.Boolean
import PushLang.Builtin.Code
import PushLang.Builtin.Control
import PushLang.Builtin.Float
import PushLang.Builtin.Input
import PushLang.Builtin.Integer
import PushLang.Builtin.Move

namespace PushLang

/-- The kinds of random constants. -/
inductive ConstantKind where
  | integer
  | float
  | boolean
deriving Repr, DecidableEq

namespace ConstantKind

def all : List ConstantKind := [.integer, .float, .boolean]

def name : ConstantKind → String
  | .integer => "integer.rand"
  | .float => "float.rand"
  | .boolean => "boolean.rand"

end ConstantKind

inductive FrameOp where
  | push
  | pop
deriving Repr, DecidableEq

namespace FrameOp

def all : List FrameOp := [.push, .pop]

def name : FrameOp → String
  | .push => "frame.push"
  | .pop => "frame.pop"

end FrameOp

inductive Builtin where
  | integer (op : IntegerOp)
  | float (op : FloatOp)
  | boolean (op : BooleanOp)
  | code (op : CodeOp)
  | constant (kind : ConstantKind)
  | quote
  | noop (stack : CodeStack)
  | choose (stack : CodeStack)
  | randomCode (stack : CodeStack)
  | loop (stack : CodeStack) (which : Loop)
  | combinator (which : Combinator)
  | compareNext
  | input (op : InputOp)
  | move (kind : StackKind) (op : StackMove)
  | moveDeep (kind : StackKind) (op : DepthMove)
  | depth (kind : StackKind)
  | frame (op : FrameOp)
deriving Repr, DecidableEq

namespace Builtin

def name : Builtin → String
  | .integer op => op.name
  | .float op => op.name
  | .boolean op => op.name
  | .code op => op.name
  | .constant kind => kind.name
  | .quote => "code.quote"
  | .noop stack => stack.label ++ ".noop"
  | .choose stack => stack.label ++ ".if"
  | .randomCode stack => stack.label ++ ".rand"
  | .loop stack which => stack.label ++ "." ++ which.label
  | .combinator which => which.name
  | .compareNext => "exec.="
  | .input op => op.name
  | .move kind op => kind.label ++ "." ++ op.label
  | .moveDeep kind op => kind.label ++ "." ++ op.label
  | .depth kind => kind.label ++ ".stackdepth"
  | .frame op => op.name

def all : List Builtin :=
  IntegerOp.all.map .integer ++ FloatOp.all.map .float ++ BooleanOp.all.map .boolean ++
    CodeOp.all.map .code ++
    ConstantKind.all.map .constant ++ [.quote] ++
    (CodeStack.all.flatMap fun stack =>
      [.noop stack, .choose stack, .randomCode stack] ++ Loop.all.map (.loop stack)) ++
    Combinator.all.map .combinator ++ [.compareNext] ++ InputOp.every.map .input ++
    (StackKind.all.flatMap fun kind =>
      StackMove.all.map (.move kind) ++ DepthMove.all.map (.moveDeep kind) ++ [.depth kind]) ++
    FrameOp.all.map .frame

end Builtin

end PushLang
