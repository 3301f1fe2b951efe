import PushLang.Machine.Basic

namespace PushLang

namespace StackMove

def all : List StackMove := [.pop, .swap, .rot, .flush, .dup]

def label : StackMove → String
  | .pop => "pop"
  | .swap => "swap"
  | .rot => "rot"
  | .flush => "flush"
  | .dup => "dup"

end StackMove

namespace DepthMove

def all : List DepthMove := [.shove, .yank, .yankDup]

def label : DepthMove → String
  | .shove => "shove"
  | .yank => "yank"
  | .yankDup => "yankdup"

end DepthMove

namespace Machine

variable {ρ : Type}

def move (machine : Machine ρ) (kind : StackKind) (move : StackMove) : Machine ρ :=
  machine.onStack kind move.apply

/-- Takes a depth from the integer stack, zero standing in for a negative one, and moves items of a
stack to or from it. A stack that is empty beforehand keeps the integer where it is. -/
def moveDeep (machine : Machine ρ) (kind : StackKind) (move : DepthMove) : Machine ρ :=
  match machine.data.integer with
  | [] => machine
  | depth :: integers =>
    if machine.depth kind = 0 then machine
    else
      let machine := { machine with data := { machine.data with integer := integers } }
      machine.onStack kind (move.apply depth.toInt.toNat)

def pushDepth (machine : Machine ρ) (kind : StackKind) : Machine ρ :=
  machine.push (.integer (Int32.ofNat (machine.depth kind)))

end Machine

end PushLang
