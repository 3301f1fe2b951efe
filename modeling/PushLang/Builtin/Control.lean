import PushLang.Config
import PushLang.Machine.Basic

/-! Control: choices, loops and combinators. They take code from the code stack or from what is
still to be executed, and put what is to happen next in front of it. -/

namespace PushLang

/-- The two stacks that hold code. -/
inductive CodeStack where
  | code
  | exec
deriving Repr, DecidableEq

/-- The loops: over a range of integers, and a number of times with or without the loop's index. -/
inductive Loop where
  | range
  | count
  | times
deriving Repr, DecidableEq

/-- The combinators of combinatory logic: `k` drops its second argument, `s` distributes its third
one over the other two, and `y` repeats its argument. -/
inductive Combinator where
  | k
  | s
  | y
deriving Repr, DecidableEq

namespace CodeStack

def all : List CodeStack := [.code, .exec]

def label : CodeStack → String
  | .code => "code"
  | .exec => "exec"

end CodeStack

namespace Loop

def all : List Loop := [.range, .count, .times]

def label : Loop → String
  | .range => "do*range"
  | .count => "do*count"
  | .times => "do*times"

end Loop

namespace Combinator

def all : List Combinator := [.k, .s, .y]

def name : Combinator → String
  | .k => "exec.k"
  | .s => "exec.s"
  | .y => "exec.y"

end Combinator

namespace Machine

variable {ρ : Type}

def codeItems (machine : Machine ρ) : CodeStack → Stack Atom
  | .code => machine.data.code
  | .exec => machine.exec

/-- The machine with other items on a stack that holds code. -/
def setCodeItems (machine : Machine ρ) (stack : CodeStack) (items : Stack Atom) : Machine ρ :=
  match stack with
  | .code => { machine with data := { machine.data with code := items } }
  | .exec => { machine with exec := items }

/-- Puts an atom in front of what is still to be executed. -/
def schedule (atom : Atom) (machine : Machine ρ) : Machine ρ :=
  { machine with exec := atom :: machine.exec }

/-- Moves the next atom to the code stack without executing it. -/
def quote (machine : Machine ρ) : Machine ρ :=
  match machine.exec with
  | [] => machine
  | atom :: rest =>
    { machine with exec := rest, data := { machine.data with code := atom :: machine.data.code } }

/-- Takes a truth value and two atoms of a stack, and executes the top one if it is true and the
other one if not. -/
def choose (machine : Machine ρ) (stack : CodeStack) : Machine ρ :=
  match machine.data.boolean, machine.codeItems stack with
  | condition :: conditions, whenTrue :: whenFalse :: rest =>
    let machine := { machine with data := { machine.data with boolean := conditions } }
    (machine.setCodeItems stack rest).schedule (if condition then whenTrue else whenFalse)
  | _, _ => machine

/-- The atom that continues a loop from `next` to `destination`. -/
def continuation (stack : CodeStack) (next destination : Int32) (body : Atom) : Atom :=
  match stack with
  | .exec => .program [.integer next, .integer destination, .name "exec.do*range", body]
  | .code =>
    .program [.integer next, .integer destination, .name "code.quote", body, .name "code.do*range"]

/-- One step from an integer towards another, unless they are equal. -/
def stepTowards (current destination : Int32) : Option Int32 :=
  if current < destination then some (current + 1)
  else if destination < current then some (current - 1)
  else none

/-- Takes a destination, a current index and a body. The index goes back on its stack, the body is
executed, and then the loop continues from the next index unless the destination is reached. -/
def loopRange (machine : Machine ρ) (stack : CodeStack) : Machine ρ :=
  match machine.data.integer, machine.codeItems stack with
  | destination :: current :: integers, body :: rest =>
    let machine := { machine with data := { machine.data with integer := current :: integers } }
    let machine := machine.setCodeItems stack rest
    let machine := match stepTowards current destination with
      | some next => machine.schedule (continuation stack next destination body)
      | none => machine
    machine.schedule body
  | _, _ => machine

/-- Takes a positive count and a body, and starts a loop from zero to one below the count. -/
def loopCount (machine : Machine ρ) (stack : CodeStack) (body : Atom → Atom) : Machine ρ :=
  match machine.data.integer, machine.codeItems stack with
  | count :: integers, item :: rest =>
    if 0 < count then
      let machine := { machine with data := { machine.data with integer := integers } }
      (machine.setCodeItems stack rest).schedule (continuation stack 0 (count - 1) (body item))
    else machine
  | _, _ => machine

/-- A loop body that drops the loop's index first. -/
def withoutIndex (body : Atom) : Atom := .program [.name "integer.pop", body]

def loop (machine : Machine ρ) (stack : CodeStack) : Loop → Machine ρ
  | .range => machine.loopRange stack
  | .count => machine.loopCount stack id
  | .times => machine.loopCount stack withoutIndex

/-- Applies a combinator to the atoms still to be executed. The argument that `s` builds keeps to
the size limit. -/
def combine (config : Config) (machine : Machine ρ) : Combinator → Machine ρ
  | .k => match machine.exec with
    | a :: _ :: rest => { machine with exec := a :: rest }
    | _ => machine
  | .s => match machine.exec with
    | a :: b :: c :: rest =>
      if config.maxPoints < b.points + c.points then machine
      else { machine with exec := a :: c :: .program [b, c] :: rest }
    | _ => machine
  | .y => match machine.exec with
    | a :: rest => { machine with exec := a :: .program [.name "exec.y", a] :: rest }
    | [] => machine

/-- Compares the next two atoms instead of executing them. -/
def compareNext (machine : Machine ρ) : Machine ρ :=
  match machine.exec with
  | top :: second :: rest =>
    { machine with
      exec := rest
      data := { machine.data with boolean := decide (second = top) :: machine.data.boolean } }
  | _ => machine

end Machine

end PushLang
