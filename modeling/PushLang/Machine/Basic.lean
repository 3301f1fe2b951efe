import PushLang.Machine.Stacks

namespace PushLang

/-- The state of a run, with a random source of type `ρ`. -/
structure Machine (ρ : Type) where
  /-- Atoms still to be executed. -/
  exec : Stack Atom := []
  /-- Inputs of the case at hand. -/
  input : Stack Atom := []
  data : Stacks := {}
  /-- The stacks of the callers whose frames are open, innermost first. -/
  saved : List Stacks := []
  /-- Further stacks that problems add. -/
  custom : List (Stack Atom) := []
  random : ρ

/-- The kinds of stacks that instructions rearrange. -/
inductive StackKind where
  | integer
  | float
  | boolean
  | name
  | code
  | exec
deriving Repr, DecidableEq

namespace StackKind

/-- The kinds, in the order in which their instructions are defined. -/
def all : List StackKind := [.integer, .float, .boolean, .name, .code, .exec]

/-- The first part of the names of a kind's instructions. -/
def label : StackKind → String
  | .integer => "integer"
  | .float => "float"
  | .boolean => "boolean"
  | .name => "name"
  | .code => "code"
  | .exec => "exec"

/-- The first part of the names of the instructions that read inputs. -/
def inputLabel : String := "input"

end StackKind

namespace Machine

variable {ρ : Type}

/-- Applies a move to the stack of a kind. -/
def onStack (machine : Machine ρ) (kind : StackKind) (move : {α : Type} → Stack α → Stack α) :
    Machine ρ :=
  let data := machine.data
  match kind with
  | .integer => { machine with data := { data with integer := move data.integer } }
  | .float => { machine with data := { data with float := move data.float } }
  | .boolean => { machine with data := { data with boolean := move data.boolean } }
  | .name => { machine with data := { data with name := move data.name } }
  | .code => { machine with data := { data with code := move data.code } }
  | .exec => { machine with exec := move machine.exec }

/-- How many items the stack of a kind holds. -/
def depth (machine : Machine ρ) : StackKind → Nat
  | .integer => machine.data.integer.depth
  | .float => machine.data.float.depth
  | .boolean => machine.data.boolean.depth
  | .name => machine.data.name.depth
  | .code => machine.data.code.depth
  | .exec => machine.exec.depth

/-- Pushes an atom onto the typed stack of its kind. -/
def push (machine : Machine ρ) (atom : Atom) : Machine ρ :=
  { machine with data := machine.data.push atom }

/-- Puts a program on the code stack and in front of what is still to be executed. -/
def load (machine : Machine ρ) (program : Program) : Machine ρ :=
  { machine with
    data := { machine.data with code := .program program :: machine.data.code }
    exec := .program program :: machine.exec }

/-- The stacks beneath all open frames. -/
def outermost (machine : Machine ρ) : Stacks := machine.saved.getLastD machine.data

/-- Goes back to the stacks beneath all open frames and empties every stack. -/
def clear (machine : Machine ρ) : Machine ρ :=
  { machine with
    exec := []
    input := []
    data := machine.outermost.clear
    saved := []
    custom := machine.custom.map fun _ => [] }

/-- How many frames are open. -/
def frameDepth (machine : Machine ρ) : Nat := machine.saved.length

/-- Opens a frame: fresh stacks with the caller's top values. -/
def openFrame (machine : Machine ρ) : Machine ρ :=
  { machine with
    data := Stacks.seed {} machine.data.tops
    saved := machine.data :: machine.saved }

/-- Closes the innermost frame, if one is open, and hands its top values to the caller's stacks. -/
def closeFrame (machine : Machine ρ) : Machine ρ :=
  match machine.saved with
  | [] => machine
  | caller :: rest => { machine with data := caller.seed machine.data.tops, saved := rest }

/-- Adds an empty stack after the custom stacks. -/
def addCustomStack (machine : Machine ρ) : Machine ρ :=
  { machine with custom := machine.custom ++ [[]] }

end Machine

end PushLang
