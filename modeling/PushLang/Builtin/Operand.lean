import PushLang.Machine.Stacks

/-! Operations on one or two operands. An operation runs only when all of its operands are there,
and otherwise changes nothing. Of two operands the one below the top comes first. -/

namespace PushLang

namespace Stacks

def pushInteger (value : Int32) (data : Stacks) : Stacks :=
  { data with integer := value :: data.integer }
def pushFloat (value : Binary32) (data : Stacks) : Stacks :=
  { data with float := value :: data.float }
def pushBoolean (value : Bool) (data : Stacks) : Stacks :=
  { data with boolean := value :: data.boolean }
def pushCode (atom : Atom) (data : Stacks) : Stacks := { data with code := atom :: data.code }

end Stacks

/-- The stacks that operands come from and results go to, by what they hold. -/
inductive StackOf : Type → Type where
  | integer : StackOf Int32
  | float : StackOf Binary32
  | boolean : StackOf Bool
  | code : StackOf Atom

namespace StackOf

variable {α : Type}

def items : StackOf α → Stacks → Stack α
  | .integer, data => data.integer
  | .float, data => data.float
  | .boolean, data => data.boolean
  | .code, data => data.code

def setItems : StackOf α → Stack α → Stacks → Stacks
  | .integer, items, data => { data with integer := items }
  | .float, items, data => { data with float := items }
  | .boolean, items, data => { data with boolean := items }
  | .code, items, data => { data with code := items }

def push : StackOf α → α → Stacks → Stacks
  | .integer => Stacks.pushInteger
  | .float => Stacks.pushFloat
  | .boolean => Stacks.pushBoolean
  | .code => Stacks.pushCode

end StackOf

/-- An operation takes its operands from one stack and pushes its result. -/
inductive Operation where
  | unary {α β : Type} (source : StackOf α) (target : StackOf β) (result : α → β)
  | binary {α β : Type} (source : StackOf α) (target : StackOf β) (result : α → α → β)

def Operation.apply : Operation → Stacks → Stacks
  | .unary source target result, data => match source.items data with
    | value :: rest => target.push (result value) (source.setItems rest data)
    | [] => data
  | .binary source target result, data => match source.items data with
    | top :: second :: rest => target.push (result second top) (source.setItems rest data)
    | _ => data

end PushLang
