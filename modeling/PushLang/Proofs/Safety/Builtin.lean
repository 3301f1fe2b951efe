import PushLang.Proofs.Safety.Control
import PushLang.Proofs.Safety.Generation
import PushLang.Proofs.Safety.Moves

namespace PushLang.Checked

variable {ρ α : Type}

def readInput : InputOp → Checked (Machine ρ) Unit
  | .index => do
    let machine ← get
    if machine.input.length = 0 ∨ machine.data.integer.isEmpty then pure ()
    else do
      let index ← take .integer
      let last ← subtract machine.input.length 1
      modify fun machine => machine.pushInput (min index.toInt.toNat last)
  | op => modify fun machine => machine.readInput op

/-- Applies a checked move to the stack of a kind. -/
def onStack (kind : StackKind) (move : {α : Type} → Stack α → Checked (Machine ρ) (Stack α)) :
    Checked (Machine ρ) Unit := do
  let machine ← get
  match kind with
  | .integer =>
    let items ← move machine.data.integer
    set { machine with data := { machine.data with integer := items } }
  | .float =>
    let items ← move machine.data.float
    set { machine with data := { machine.data with float := items } }
  | .boolean =>
    let items ← move machine.data.boolean
    set { machine with data := { machine.data with boolean := items } }
  | .name =>
    let items ← move machine.data.name
    set { machine with data := { machine.data with name := items } }
  | .code =>
    let items ← move machine.data.code
    set { machine with data := { machine.data with code := items } }
  | .exec =>
    let items ← move machine.exec
    set { machine with exec := items }

def moveDeepOn (kind : StackKind) (op : DepthMove) : Checked (Machine ρ) Unit := do
  let machine ← get
  if machine.data.integer.isEmpty ∨ machine.depth kind = 0 then pure ()
  else do
    let depth ← take .integer
    onStack kind (moveDeep op depth.toInt.toNat)

/-- Leaves the random source to a checked draw. -/
def onSource (draw : Checked ρ α) : Checked (Machine ρ) α := fun machine =>
  match draw machine.random with
  | .ok value source => .ok value { machine with random := source }
  | .error trap source => .error trap { machine with random := source }

theorem readInput_eq (op : InputOp) (machine : Machine ρ) :
    readInput op machine = .ok () (machine.readInput op) := by
  cases op with
  | all | allReversed | depth => rfl
  | index =>
    obtain ⟨exec, input, ⟨integer, float, boolean, name, code⟩, saved, custom, random⟩ := machine
    match input, integer with
    | [], _ | _ :: _, [] | _ :: _, _ :: _ => rfl

theorem onStack_eq (kind : StackKind)
    {move : {α : Type} → Stack α → Checked (Machine ρ) (Stack α)}
    {plain : {α : Type} → Stack α → Stack α}
    (same : ∀ {α : Type} (stack : Stack α), move stack = pure (plain stack)) (machine : Machine ρ) :
    onStack kind move machine = .ok () (machine.onStack kind plain) := by
  cases kind with
  | integer | float | boolean | name | code | exec =>
    simp only [onStack, bind_apply, get_apply, same, pure_apply]
    rfl

theorem moveDeepOn_eq (kind : StackKind) (op : DepthMove) (machine : Machine ρ) :
    moveDeepOn kind op machine = .ok () (machine.moveDeep kind op) := by
  cases integers : machine.data.integer with
  | nil => simp [moveDeepOn, Machine.moveDeep, integers]
  | cons depth rest =>
    by_cases empty : machine.depth kind = 0
    · simp [moveDeepOn, Machine.moveDeep, integers, empty]
    · have taken := take_eq .integer integers
      simp only [moveDeepOn, Machine.moveDeep, integers, empty, bind_apply, get_apply,
        List.isEmpty_cons, Bool.false_eq_true, or_self, if_false, taken]
      exact onStack_eq kind (moveDeep_eq op depth.toInt.toNat) _

theorem onSource_yields {draw : Checked ρ α} {plain : ρ → α × ρ} (yields : draw.Yields plain)
    (machine : Machine ρ) :
    onSource draw machine =
      .ok (plain machine.random).1 { machine with random := (plain machine.random).2 } := by
  simp only [onSource, yields machine.random]

variable [RandomSource ρ]

def pushConstant (config : Config) : ConstantKind → Checked (Machine ρ) Unit
  | .integer => do push .integer (← onSource (randomInteger config))
  | .float => do push .float (← onSource (draw (randomFloat config)))
  | .boolean => do push .boolean ((← onSource (drawBelow 2)) == 1)

def pushRandomCode (env : Environment) (stack : CodeStack) : Checked (Machine ρ) Unit := do
  let machine ← get
  if machine.data.integer.isEmpty ∨ env.eligible.isEmpty then pure ()
  else do
    let requested ← take .integer
    let code ← onSource (boundedCode env requested)
    modify fun machine => machine.setCodeItems stack (.program code :: machine.codeItems stack)

/-- Runs a built-in instruction in checked steps. Those on frames and on the depths of stacks have
no step that could fail. -/
def builtin (env : Environment) : Builtin → Checked (Machine ρ) Unit
  | .integer op => operate op.operation
  | .float op => operate op.operation
  | .boolean op => operate op.operation
  | .code op => operate op.operation
  | .constant kind => pushConstant env.config kind
  | .quote => quote
  | .noop _ => pure ()
  | .choose stack => choose stack
  | .randomCode stack => pushRandomCode env stack
  | .loop stack which => loop stack which
  | .combinator which => combine env.config which
  | .compareNext => compareNext
  | .input op => readInput op
  | .move kind op => onStack kind (move op)
  | .moveDeep kind op => moveDeepOn kind op
  | .depth kind => modify fun machine => machine.pushDepth kind
  | .frame op => modify fun machine => machine.changeFrame env.config op

/-- Runs an instruction in checked steps. An instruction that a problem adds may fail in its own
way. -/
def instruction (view : View) : Instruction ρ → Checked (Machine ρ) Unit
  | .builtin which => builtin view.toEnvironment which
  | .inputAt index => modify fun machine => machine.pushInput index
  | .added effect => fun machine => match effect view machine with
    | .ok _ machine => .ok () machine
    | .error cause machine => .error (.error cause) machine

theorem pushConstant_eq (config : Config) (kind : ConstantKind) (machine : Machine ρ) :
    pushConstant config kind machine = .ok () (machine.pushConstant config kind) := by
  cases kind with
  | integer =>
    simp only [pushConstant, bind_apply, onSource_yields (randomInteger_yields config)]
    rfl
  | float => rfl
  | boolean =>
    simp only [pushConstant, bind_apply, onSource_yields (Yields.drawBelow (Nat.succ_pos 1))]
    rfl

theorem pushRandomCode_passes (env : Environment) (stack : CodeStack) :
    (pushRandomCode env stack : Checked (Machine ρ) Unit).Passes (env.pushRandomCode stack) := by
  intro machine
  cases integers : machine.data.integer with
  | nil =>
    exact ⟨(),
    machine, by simp [Environment.pushRandomCode, integers], by simp [pushRandomCode, integers]⟩
  | cons requested others =>
    by_cases eligible : env.eligible = []
    · exact ⟨(), machine, by simp [Environment.pushRandomCode, integers, eligible],
        by simp [pushRandomCode, eligible]⟩
    · obtain ⟨code, source, plain, checked⟩ := boundedCode_passes eligible requested machine.random
      have taken := take_eq .integer integers
      have present : env.eligible.isEmpty = false := List.isEmpty_eq_false_iff.mpr eligible
      let drawn : Machine ρ :=
        { machine with data := { machine.data with integer := others }, random := source }
      refine ⟨(), drawn.setCodeItems stack (.program code :: drawn.codeItems stack), ?_, ?_⟩
      · simp only [Environment.pushRandomCode, integers, present, Bool.false_eq_true, if_false,
          Action.ofDraw, plain]
        rfl
      · simp only [pushRandomCode, bind_apply, get_apply, integers, List.isEmpty_cons, present,
          Bool.false_eq_true, or_self, if_false, taken, onSource, checked]
        rfl

theorem builtin_passes (env : Environment) (which : Builtin) :
    (builtin env which : Checked (Machine ρ) Unit).Passes (which.run env) := by
  cases which with
  | integer op | float op | boolean op | code op => exact .modify (operate_eq op.operation)
  | constant kind => exact .modify (pushConstant_eq env.config kind)
  | quote => exact .modify quote_eq
  | noop stack => exact .pure ()
  | choose stack => exact .modify (choose_eq stack)
  | randomCode stack => exact pushRandomCode_passes env stack
  | loop stack which => exact .modify (loop_eq stack which)
  | combinator which => exact .modify (combine_eq env.config which)
  | compareNext => exact .modify compareNext_eq
  | input op => exact .modify (readInput_eq op)
  | move kind op => exact .modify (onStack_eq kind (move_eq op))
  | moveDeep kind op => exact .modify (moveDeepOn_eq kind op)
  | depth kind | frame op => exact .modify fun machine => rfl

end PushLang.Checked
