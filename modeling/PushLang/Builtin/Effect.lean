import PushLang.Builtin.Basic
import PushLang.Generation.Code

namespace PushLang

variable {ρ : Type}

/-- A change of a machine that may fail; it leaves a machine behind either way. -/
abbrev Action (ρ α : Type) := EStateM Error (Machine ρ) α

/-- Leaves the random source to a draw. -/
def Action.ofDraw {α : Type} (draw : Draw ρ α) : Action ρ α := fun machine =>
  match draw machine.random with
  | .ok value source => .ok value { machine with random := source }
  | .error cause source => .error cause { machine with random := source }

namespace Machine

def operate (machine : Machine ρ) (operation : Operation) : Machine ρ :=
  { machine with data := operation.apply machine.data }

/-- Opens or closes a frame, if programs have frames at all. -/
def changeFrame (config : Config) (machine : Machine ρ) (op : FrameOp) : Machine ρ :=
  if config.frameMode then
    match op with
    | .push => machine.openFrame
    | .pop => machine.closeFrame
  else machine

variable [RandomSource ρ]

def pushConstant (config : Config) (machine : Machine ρ) : ConstantKind → Machine ρ
  | .integer =>
    let (value, source) := randomInteger config machine.random
    { machine with random := source }.push (.integer value)
  | .float =>
    let (value, source) := randomFloat config machine.random
    { machine with random := source }.push (.float value)
  | .boolean =>
    let (value, source) := coin machine.random
    { machine with random := source }.push (.boolean value)

end Machine

variable [RandomSource ρ]

/-- Random code of at most as many points below the root as an integer and the configuration allow,
but at least one. -/
def Environment.boundedCode (env : Environment) (requested : Int32) :
    Draw ρ Program := fun source =>
  let limit := min requested.toInt.natAbs env.config.maxRandomCodeSize
  let (size, source) := if 0 < limit then (below limit source).map (· + 2) id else (2, source)
  env.randomCode size source

/-- Takes an integer and pushes random code bounded by it, where there is an integer and a
generator. -/
def Environment.pushRandomCode (env : Environment) (stack : CodeStack) :
    Action ρ Unit := fun machine =>
  match machine.data.integer with
  | [] => .ok () machine
  | requested :: integers =>
    if env.eligible.isEmpty then .ok () machine
    else
      let machine := { machine with data := { machine.data with integer := integers } }
      match Action.ofDraw (env.boundedCode requested) machine with
      | .ok code machine =>
        .ok () (machine.setCodeItems stack (.program code :: machine.codeItems stack))
      | .error cause machine => .error cause machine

def Builtin.run (env : Environment) : Builtin → Action ρ Unit
  | .integer op => modify fun machine => machine.operate op.operation
  | .float op => modify fun machine => machine.operate op.operation
  | .boolean op => modify fun machine => machine.operate op.operation
  | .code op => modify fun machine => machine.operate op.operation
  | .constant kind => modify fun machine => machine.pushConstant env.config kind
  | .quote => modify Machine.quote
  | .noop _ => pure ()
  | .choose stack => modify fun machine => machine.choose stack
  | .randomCode stack => env.pushRandomCode stack
  | .loop stack which => modify fun machine => machine.loop stack which
  | .combinator which => modify fun machine => machine.combine env.config which
  | .compareNext => modify Machine.compareNext
  | .input op => modify fun machine => machine.readInput op
  | .move kind op => modify fun machine => machine.move kind op
  | .moveDeep kind op => modify fun machine => machine.moveDeep kind op
  | .depth kind => modify fun machine => machine.pushDepth kind
  | .frame op => modify fun machine => machine.changeFrame env.config op

/-- What an interpreter has counted up to now. -/
structure Counts where
  /-- Atoms executed by all calls that ended well. -/
  totalSteps : Nat := 0
  /-- Programs started. -/
  evaluations : Nat := 0

/-- What an instruction that a problem adds can read besides the machine. -/
structure View extends Environment where
  counts : Counts := {}

/-- An instruction: a built-in one, one that pushes the input with a number, or one that a problem
adds. -/
inductive Instruction (ρ : Type) where
  | builtin (which : Builtin)
  | inputAt (index : Nat)
  | added (effect : View → Action ρ Unit)

def Instruction.run (view : View) : Instruction ρ → Action ρ Unit
  | .builtin which => which.run view.toEnvironment
  | .inputAt index => modify fun machine => machine.pushInput index
  | .added effect => effect view

end PushLang
