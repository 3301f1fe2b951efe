import PushLang.Machine.Basic

namespace PushLang

inductive InputOp where
  | index
  | all
  | allReversed
  | depth
deriving Repr, DecidableEq

namespace InputOp

def every : List InputOp := [.index, .all, .allReversed, .depth]

def name : InputOp → String
  | .index => "input.index"
  | .all => "input.inall"
  | .allReversed => "input.inallrev"
  | .depth => "input.stackdepth"

end InputOp

namespace Machine

variable {ρ : Type}

/-- Pushes the input with a number, if there is one. -/
def pushInput (machine : Machine ρ) (index : Nat) : Machine ρ :=
  match machine.input.get? index with
  | some value => machine.push value
  | none => machine

/-- Takes an integer and pushes the input with that number, kept within the inputs there are. -/
def pushIndexedInput (machine : Machine ρ) : Machine ρ :=
  match machine.input, machine.data.integer with
  | _ :: _, index :: integers =>
    let machine := { machine with data := { machine.data with integer := integers } }
    machine.pushInput (min index.toInt.toNat (machine.input.depth - 1))
  | _, _ => machine

def readInput (machine : Machine ρ) : InputOp → Machine ρ
  | .index => machine.pushIndexedInput
  | .all => machine.input.toBottom.foldl push machine
  | .allReversed => machine.input.foldl push machine
  | .depth => machine.push (.integer (Int32.ofNat machine.input.depth))

end Machine

end PushLang
