import PushLang.Machine.Basic

namespace PushLang

/-- What the stack of a kind holds. -/
def StackKind.Item : StackKind → Type
  | .integer => Int32
  | .float => Binary32
  | .boolean => Bool
  | .name => String
  | .code | .exec => Atom

namespace Machine

variable {ρ : Type}

def items (machine : Machine ρ) : (kind : StackKind) → Stack kind.Item
  | .integer => machine.data.integer
  | .float => machine.data.float
  | .boolean => machine.data.boolean
  | .name => machine.data.name
  | .code => machine.data.code
  | .exec => machine.exec

def setItems (machine : Machine ρ) : (kind : StackKind) → Stack kind.Item → Machine ρ
  | .integer, items => { machine with data := { machine.data with integer := items } }
  | .float, items => { machine with data := { machine.data with float := items } }
  | .boolean, items => { machine with data := { machine.data with boolean := items } }
  | .name, items => { machine with data := { machine.data with name := items } }
  | .code, items => { machine with data := { machine.data with code := items } }
  | .exec, items => { machine with exec := items }

/-- The machines agree on everything but the stack of a kind. -/
structure AgreesOutside (kind : StackKind) (machine after : Machine ρ) : Prop where
  items : ∀ other, other ≠ kind → after.items other = machine.items other
  input : after.input = machine.input
  saved : after.saved = machine.saved
  custom : after.custom = machine.custom
  random : after.random = machine.random

variable (machine : Machine ρ) (kind : StackKind)

theorem depth_eq : machine.depth kind = (machine.items kind).length := by
  cases kind <;> rfl

@[simp] theorem items_setItems (items : Stack kind.Item) :
    (machine.setItems kind items).items kind = items := by
  cases kind <;> rfl

@[simp] theorem setItems_items : machine.setItems kind (machine.items kind) = machine := by
  cases kind <;> rfl

theorem setItems_agreesOutside (items : Stack kind.Item) :
    machine.AgreesOutside kind (machine.setItems kind items) := by
  constructor
  case items =>
    intro other apart
    cases kind <;> cases other <;> first | rfl | exact absurd rfl apart
  all_goals cases kind <;> rfl

theorem onStack_eq (move : {α : Type} → Stack α → Stack α) :
    machine.onStack kind move = machine.setItems kind (move (machine.items kind)) := by
  cases kind <;> rfl

end Machine

end PushLang
