import PushLang.InstructionSet.Selection
import PushLang.Program.Reader
import PushLang.Text.Lines

namespace PushLang

structure Interpreter (ρ : Type) where
  config : Config := {}
  instructions : InstructionSet ρ
  machine : Machine ρ
  /-- Atoms executed by all calls that ended well. -/
  totalSteps : Nat := 0
  /-- Programs started. -/
  evaluations : Nat := 0

variable {ρ : Type}

/-- What a run leaves behind: the machine, the atoms executed, and the error of the atom after them,
if one failed. -/
structure Run (ρ : Type) where
  machine : Machine ρ
  taken : Nat
  failure : Option Error

/-- What stays as it is throughout a call: the configuration, and what was counted before. -/
structure Context extends Config where
  counts : Counts := {}

instance : Coe Context Config := ⟨Context.toConfig⟩

/-- What a program is replaced by: its atoms, between the opening and the closing of a frame where
programs have frames. -/
def unfold (config : Config) (body : Program) : List Atom :=
  if config.frameMode then .name FrameOp.push.name :: (body ++ [.name FrameOp.pop.name]) else body

namespace InstructionSet

variable [RandomSource ρ]

/-- What the instructions of a set can read in a call. -/
def view (set : InstructionSet ρ) (context : Context) : View where
  config := context
  eligible := set.eligible
  counts := context.counts

/-- Executes one atom. A literal goes onto its stack and so does a name without an instruction; a
program is replaced by its atoms. -/
def execute (set : InstructionSet ρ) (context : Context) : Atom → Action ρ Unit
  | .program body =>
    modify fun machine => { machine with exec := unfold context body ++ machine.exec }
  | .name text => match set.get? text with
    | some instruction => instruction.run (set.view context)
    | none => modify fun machine => machine.push (.name text)
  | atom => modify fun machine => machine.push atom

/-- Executes atoms while there are any and the budget allows, counting on from those taken
before. -/
def runFrom (set : InstructionSet ρ) (context : Context) (taken : Nat) : Nat → Machine ρ → Run ρ
  | 0, machine => ⟨machine, taken, none⟩
  | budget + 1, machine => match machine.exec with
    | [] => ⟨machine, taken, none⟩
    | atom :: rest => match set.execute context atom { machine with exec := rest } with
      | .ok () machine => set.runFrom context (taken + 1) budget machine
      | .error cause machine => ⟨machine, taken, some cause⟩

/-- Executes at most as many atoms as the budget allows. -/
def run (set : InstructionSet ρ) (context : Context) (budget : Nat) (machine : Machine ρ) : Run ρ :=
  set.runFrom context 0 budget machine

end InstructionSet

namespace Interpreter

/-- An interpreter with the standard instructions and an empty machine. -/
def new (config : Config) (random : ρ) : Interpreter ρ where
  config
  instructions := .standard
  machine := { random }

def environment (interpreter : Interpreter ρ) : Environment :=
  ⟨interpreter.config, interpreter.instructions.eligible⟩

def counts (interpreter : Interpreter ρ) : Counts :=
  ⟨interpreter.totalSteps, interpreter.evaluations⟩

/-- The context of a call at this time. -/
def context (interpreter : Interpreter ρ) : Context :=
  { interpreter.config with counts := interpreter.counts }

/-- What instructions can read at this time. -/
def view (interpreter : Interpreter ρ) : View := interpreter.instructions.view interpreter.context

/-- Applies a change to the machine. -/
def onMachine (interpreter : Interpreter ρ) (change : Machine ρ → Machine ρ) : Interpreter ρ :=
  { interpreter with machine := change interpreter.machine }

/-- Loads a program and counts it as started. -/
def start (interpreter : Interpreter ρ) (program : Program) : Interpreter ρ :=
  { interpreter with
    machine := interpreter.machine.load program
    evaluations := interpreter.evaluations + 1 }

/-- Selects what random code draws from. -/
def configure (interpreter : Interpreter ρ) (list : Program) : Except Error Unit × Interpreter ρ :=
  let (result, instructions) := interpreter.instructions.configure list
  (result, { interpreter with instructions })

/-- Selects what random code draws from by the text of an instruction list, which is a program
without its parentheses, over any number of lines. -/
def loadList (interpreter : Interpreter ρ) (text : String) : Except Error Unit × Interpreter ρ :=
  match Program.ofChars ('(' :: Text.joinLines text.toList ++ [')']) with
  | .ok list => interpreter.configure list
  | .error cause => (.error cause, interpreter)

/-- Defines an instruction that random code can draw at once. -/
def addInstruction (interpreter : Interpreter ρ) (name : String) (instruction : Instruction ρ) :
    Interpreter ρ :=
  { interpreter with instructions := interpreter.instructions.add name instruction }

/-- Opens a frame, if programs have frames. -/
def pushFrame (interpreter : Interpreter ρ) : Interpreter ρ :=
  interpreter.onMachine fun machine => machine.changeFrame interpreter.config .push

/-- Closes the innermost frame, if programs have frames and one is open. -/
def popFrame (interpreter : Interpreter ρ) : Interpreter ρ :=
  interpreter.onMachine fun machine => machine.changeFrame interpreter.config .pop

variable [RandomSource ρ]

/-- Executes at most as many atoms as the budget allows, and returns how many it took. The steps of
a call that fails do not count towards the total. -/
def step (interpreter : Interpreter ρ) (budget : Nat) : Except Error Nat × Interpreter ρ :=
  let run := interpreter.instructions.run interpreter.context budget interpreter.machine
  let interpreter := { interpreter with machine := run.machine }
  match run.failure with
  | some cause => (.error cause, interpreter)
  | none => (.ok run.taken, { interpreter with totalSteps := interpreter.totalSteps + run.taken })

/-- Loads a program and executes at most as many atoms as the budget allows, without clearing stacks
first. -/
def execute (interpreter : Interpreter ρ) (program : Program) (budget : Nat) :
    Except Error Nat × Interpreter ρ :=
  (interpreter.start program).step budget

/-- Executes a program within the configured limit. -/
def run (interpreter : Interpreter ρ) (program : Program) : Except Error Nat × Interpreter ρ :=
  interpreter.execute program interpreter.config.executionLimit

/-- Clears the machine, lets `seed` push the values of a case, and executes a program within the
configured limit. -/
def evaluateCase (interpreter : Interpreter ρ) (program : Program) (seed : Machine ρ → Machine ρ) :
    Except Error Nat × Interpreter ρ :=
  (interpreter.onMachine fun machine => seed machine.clear).run program

end Interpreter

end PushLang
