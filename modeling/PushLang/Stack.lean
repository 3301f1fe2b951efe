import PushLang.Error

/-! Stacks. A stack is the list of its items, top first. Depths count from the top and indices from
the bottom; operations that move items clamp a depth to the stack. -/

namespace PushLang

/-- The items of a stack, top first. -/
abbrev Stack (α : Type) := List α

namespace Stack

variable {α : Type}

def ofBottom (items : List α) : Stack α := items.reverse

def toBottom (stack : Stack α) : List α := stack.reverse

/-- Pushes several items, the last one ending on top. -/
def extend (stack : Stack α) (items : List α) : Stack α := items.reverse ++ stack

def depth (stack : Stack α) : Nat := stack.length

/-- The top item and the stack without it; the label names the stack in the error. -/
def pop (label : String) : Stack α → Except Error (α × Stack α)
  | [] => .error (.underflow label)
  | top :: rest => .ok (top, rest)

def top? (stack : Stack α) : Option α := stack.head?

/-- The item at a depth. Depths are 64-bit words and the count of items above is one more than the
depth, so the last word is out of range. -/
def peek (stack : Stack α) (depth : Nat) : Except Fault (Option α) :=
  if depth + 1 < UInt64.size then .ok stack[depth]? else .error .outOfRange

/-- The item at an index from the bottom. -/
def get? (stack : Stack α) (index : Nat) : Option α :=
  if index < stack.length then stack[stack.length - 1 - index]? else none

def swap : Stack α → Stack α
  | a :: b :: rest => b :: a :: rest
  | stack => stack

/-- Moves the third item to the top. -/
def rot : Stack α → Stack α
  | a :: b :: c :: rest => c :: a :: b :: rest
  | stack => stack

def dup : Stack α → Stack α
  | a :: rest => a :: a :: rest
  | [] => []

/-- A depth kept within the stack. -/
def clamp (stack : Stack α) (depth : Nat) : Nat := min depth (stack.length - 1)

/-- The item at a clamped depth and the stack without it; none of an empty stack. -/
def removeAt? (stack : Stack α) (depth : Nat) : Option (α × Stack α) :=
  stack[stack.clamp depth]?.map fun item => (item, stack.eraseIdx (stack.clamp depth))

/-- Puts an item at a depth, at most at the bottom. -/
def insertAt (stack : Stack α) (depth : Nat) (item : α) : Stack α :=
  stack.take depth ++ item :: stack.drop depth

/-- Moves the top item down to a depth. -/
def shove (stack : Stack α) (depth : Nat) : Stack α :=
  match stack with
  | [] => []
  | top :: rest => insertAt rest depth top

/-- Moves the item at a depth to the top. -/
def yank (stack : Stack α) (depth : Nat) : Stack α :=
  match stack.removeAt? depth with
  | some (item, rest) => item :: rest
  | none => stack

/-- Copies the item at a depth to the top. -/
def yankDup (stack : Stack α) (depth : Nat) : Stack α :=
  match stack[stack.clamp depth]? with
  | some item => item :: stack
  | none => stack

end Stack

/-- The moves that every stack has, whatever its items are. -/
inductive StackMove where
  | pop
  | swap
  | rot
  | flush
  | dup
deriving Repr, DecidableEq

/-- The moves that go to a depth. -/
inductive DepthMove where
  | shove
  | yank
  | yankDup
deriving Repr, DecidableEq

variable {α : Type}

def StackMove.apply : StackMove → Stack α → Stack α
  | .pop, stack => stack.tail
  | .swap, stack => stack.swap
  | .rot, stack => stack.rot
  | .flush, _ => []
  | .dup, stack => stack.dup

def DepthMove.apply : DepthMove → Nat → Stack α → Stack α
  | .shove, depth, stack => stack.shove depth
  | .yank, depth, stack => stack.yank depth
  | .yankDup, depth, stack => stack.yankDup depth

end PushLang
