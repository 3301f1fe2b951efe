import PushLang.Proofs.InstructionSet.Builtins
import PushLang.Proofs.Interpreter.Origins
import PushLang.Proofs.Interpreter.Run
import PushLang.Proofs.Machine.Items
import PushLang.Random.Script

namespace PushLang

/-- The stack that the operands of an operation on integers come from, and how many there are. -/
def IntegerOp.operands : IntegerOp → StackKind × Nat
  | .add | .sub | .mul | .div | .rem | .pow | .log | .eq | .gt | .lt | .min | .max => (.integer, 2)
  | .abs | .neg | .ln => (.integer, 1)
  | .fromFloat => (.float, 1)
  | .fromBoolean => (.boolean, 1)

def FloatOp.operands : FloatOp → StackKind × Nat
  | .add | .sub | .mul | .div | .rem | .pow | .log | .eq | .gt | .lt | .min | .max => (.float, 2)
  | .sin | .cos | .tan | .exp | .abs | .neg | .ln => (.float, 1)
  | .fromInteger => (.integer, 1)
  | .fromBoolean => (.boolean, 1)

def BooleanOp.operands : BooleanOp → StackKind × Nat
  | .eq | .and | .or | .xor => (.boolean, 2)
  | .not => (.boolean, 1)
  | .fromInteger => (.integer, 1)
  | .fromFloat => (.float, 1)

def CodeOp.operands : CodeOp → StackKind × Nat
  | .fromBoolean => (.boolean, 1)
  | .fromInteger => (.integer, 1)
  | .fromFloat => (.float, 1)
  | .eq => (.code, 2)

/-- How many items a move needs. -/
def StackMove.count : StackMove → Nat
  | .flush => 0
  | .pop | .dup => 1
  | .swap => 2
  | .rot => 3

/-- How many atoms a combinator needs. -/
def Combinator.count : Combinator → Nat
  | .y => 1
  | .k => 2
  | .s => 3

/-- The kind of a stack that holds code. -/
def CodeStack.kind : CodeStack → StackKind
  | .code => .code
  | .exec => .exec

namespace Builtin

/-- The stacks that an instruction looks at before it takes anything, and how many items it needs on
each. -/
def operands : Builtin → List (StackKind × Nat)
  | .integer op => [op.operands]
  | .float op => [op.operands]
  | .boolean op => [op.operands]
  | .code op => [op.operands]
  | .quote => [(.exec, 1)]
  | .choose stack => [(.boolean, 1), (stack.kind, 2)]
  | .randomCode _ => [(.integer, 1)]
  | .loop stack .range => [(.integer, 2), (stack.kind, 1)]
  | .loop stack .count | .loop stack .times => [(.integer, 1), (stack.kind, 1)]
  | .combinator which => [(.exec, which.count)]
  | .compareNext => [(.exec, 2)]
  | .input .index => [(.integer, 1)]
  | .move kind op => [(kind, op.count)]
  | .moveDeep kind _ => [(.integer, 1), (kind, 1)]
  | .constant _ | .noop _ | .input .all | .input .allReversed | .input .depth | .depth _
    | .frame _ => []

/-- A stack holds fewer items than an instruction needs there. -/
def IsShort {ρ : Type} (which : Builtin) (machine : Machine ρ) : Prop :=
  ∃ needed ∈ which.operands, machine.depth needed.1 < needed.2

end Builtin

/-- Something that an instruction needs is not there. -/
inductive Instruction.Misses {ρ : Type} (env : Environment) (machine : Machine ρ) :
    Instruction ρ → Prop where
  | item {which : Builtin} (few : which.IsShort machine) : Misses env machine (.builtin which)
  /-- Loops that count need a positive integer. -/
  | count {stack : CodeStack} {which : Loop} (counts : which ≠ .range)
      (top : ∀ count ∈ machine.data.integer.top?, ¬ 0 < count) :
        Misses env machine (.builtin (.loop stack which))
  | generator {stack : CodeStack} (none : env.eligible = []) :
      Misses env machine (.builtin (.randomCode stack))
  | input (none : machine.input = []) : Misses env machine (.builtin (.input .index))
  | inputAt {index : Nat} (absent : machine.input.depth ≤ index) :
      Misses env machine (.inputAt index)

section Operations

variable {α : Type}

/-- The kind of a stack of operands. -/
def StackOf.kind : StackOf α → StackKind
  | .integer => .integer
  | .float => .float
  | .boolean => .boolean
  | .code => .code

/-- The stack that an operation takes its operands from, and how many it takes. -/
def Operation.operands : Operation → StackKind × Nat
  | .unary source _ _ => (source.kind, 1)
  | .binary source _ _ => (source.kind, 2)

theorem IntegerOp.operands_operation (op : IntegerOp) : op.operation.operands = op.operands := by
  cases op <;> rfl

theorem FloatOp.operands_operation (op : FloatOp) : op.operation.operands = op.operands := by
  cases op <;> rfl

theorem BooleanOp.operands_operation (op : BooleanOp) : op.operation.operands = op.operands := by
  cases op <;> rfl

theorem CodeOp.operands_operation (op : CodeOp) : op.operation.operands = op.operands := by
  cases op <;> rfl

theorem StackMove.apply_of_few (op : StackMove) {stack : Stack α} (few : stack.length < op.count) :
    op.apply stack = stack := by
  match op, stack with
  | .flush, _ => exact absurd few (Nat.not_lt_zero _)
  | .pop, [] | .dup, [] | .swap, [] | .swap, [_] | .rot, [] | .rot, [_] | .rot, [_, _] => rfl
  | .pop, _ :: _ | .dup, _ :: _ | .swap, _ :: _ :: _ | .rot, _ :: _ :: _ :: _ =>
    simp only [count, List.length_cons] at few
    omega

end Operations

namespace Machine

variable {ρ : Type} {machine : Machine ρ}

theorem depth_stackOf {α : Type} (machine : Machine ρ) (source : StackOf α) :
    machine.depth source.kind = (source.items machine.data).length := by
  cases source <;> rfl

theorem depth_codeStack (machine : Machine ρ) (stack : CodeStack) :
    machine.depth stack.kind = (machine.codeItems stack).length := by
  cases stack <;> rfl

theorem operate_of_few {operation : Operation}
    (few : machine.depth operation.operands.1 < operation.operands.2) :
    machine.operate operation = machine := by
  have same : operation.apply machine.data = machine.data := by
    cases operation with
    | unary source target result =>
      simp only [Operation.operands, depth_stackOf, Nat.lt_one_iff, List.length_eq_zero_iff] at few
      simp only [Operation.apply, few]
    | binary source target result =>
      simp only [Operation.operands, depth_stackOf] at few
      simp only [Operation.apply]
      split
      · rename_i items
        rw [items] at few
        simp only [List.length_cons] at few
        omega
      · rfl
  rw [operate, same]

theorem move_of_few {kind : StackKind} {op : StackMove} (few : machine.depth kind < op.count) :
    machine.move kind op = machine := by
  rw [depth_eq] at few
  rw [move, onStack_eq, op.apply_of_few few, setItems_items]

theorem quote_of_few (few : machine.depth .exec < 1) : machine.quote = machine := by
  unfold quote
  split
  · rfl
  · rename_i items
    simp only [depth, Stack.depth, items, List.length_cons] at few
    omega

theorem choose_of_few {stack : CodeStack}
    (few : machine.depth .boolean < 1 ∨ machine.depth stack.kind < 2) :
    machine.choose stack = machine := by
  rw [depth_codeStack] at few
  unfold choose
  split
  · rename_i booleans items
    simp only [depth, Stack.depth, booleans, items, List.length_cons] at few
    omega
  · rfl

theorem loopRange_of_few {stack : CodeStack}
    (few : machine.depth .integer < 2 ∨ machine.depth stack.kind < 1) :
    machine.loopRange stack = machine := by
  rw [depth_codeStack] at few
  unfold loopRange
  split
  · rename_i integers items
    simp only [depth, Stack.depth, integers, items, List.length_cons] at few
    omega
  · rfl

theorem loopCount_of_few {stack : CodeStack}
    (few : machine.depth .integer < 1 ∨ machine.depth stack.kind < 1) (body : Atom → Atom) :
    machine.loopCount stack body = machine := by
  rw [depth_codeStack] at few
  unfold loopCount
  split
  · rename_i integers items
    simp only [depth, Stack.depth, integers, items, List.length_cons] at few
    omega
  · rfl

theorem loopCount_of_not_positive (top : ∀ count ∈ machine.data.integer.top?, ¬ 0 < count)
    (stack : CodeStack) (body : Atom → Atom) : machine.loopCount stack body = machine := by
  unfold loopCount
  split
  · rename_i integers items
    exact if_neg (top _ (by simp [Stack.top?, integers]))
  · rfl

theorem combine_of_few {which : Combinator} (few : machine.depth .exec < which.count)
    (config : Config) :
    machine.combine config which = machine := by
  cases which with
  | k | s | y =>
    simp only [combine]
    split
    · rename_i items
      simp only [depth, Stack.depth, Combinator.count, items, List.length_cons] at few
      omega
    · rfl

theorem compareNext_of_few (few : machine.depth .exec < 2) : machine.compareNext = machine := by
  unfold compareNext
  split
  · rename_i items
    simp only [depth, Stack.depth, items, List.length_cons] at few
    omega
  · rfl

theorem pushInput_of_absent {index : Nat} (absent : machine.input.depth ≤ index) :
    machine.pushInput index = machine := by
  have outside : machine.input.get? index = none := if_neg (Nat.not_lt_of_ge absent)
  simp only [pushInput, outside]

theorem pushIndexedInput_of_few (few : machine.input = [] ∨ machine.depth .integer < 1) :
    machine.pushIndexedInput = machine := by
  unfold pushIndexedInput
  split
  · rename_i inputs integers
    rcases few with none | few
    · rw [none] at inputs
      cases inputs
    · simp only [depth, Stack.depth, integers, List.length_cons] at few
      omega
  · rfl

theorem moveDeep_of_few {kind : StackKind}
    (few : machine.depth .integer < 1 ∨ machine.depth kind < 1) (op : DepthMove) :
    machine.moveDeep kind op = machine := by
  unfold moveDeep
  split
  · rfl
  · rename_i integers
    refine if_pos ?_
    simp only [depth, Stack.depth, integers, List.length_cons] at few ⊢
    omega

end Machine

theorem Action.modify_eq_self {ρ : Type} {change : Machine ρ → Machine ρ} {machine : Machine ρ}
    (same : change machine = machine) : (modify change : Action ρ Unit) machine = .ok () machine :=
  congrArg (EStateM.Result.ok ()) same

variable {ρ : Type} [RandomSource ρ] {env : Environment} {machine : Machine ρ}

namespace Environment

theorem pushRandomCode_of_few (few : machine.depth .integer < 1) (stack : CodeStack) :
    env.pushRandomCode stack machine = .ok () machine := by
  unfold pushRandomCode
  split
  · rfl
  · rename_i integers
    simp only [Machine.depth, Stack.depth, integers, List.length_cons] at few
    omega

end Environment

namespace Builtin

variable {which : Builtin}

omit [RandomSource ρ] in
theorem isShort_one {needed : StackKind × Nat} (only : which.operands = [needed]) :
    which.IsShort machine ↔ machine.depth needed.1 < needed.2 := by
  simp only [IsShort, only, List.mem_singleton, exists_eq_left]

omit [RandomSource ρ] in
theorem isShort_two {first second : StackKind × Nat} (both : which.operands = [first, second]) :
    which.IsShort machine ↔
      machine.depth first.1 < first.2 ∨ machine.depth second.1 < second.2 := by
  simp only [IsShort, both, List.mem_cons, List.not_mem_nil, or_false, exists_eq_or_imp,
    exists_eq_left]

theorem run_of_isShort (short : which.IsShort machine) :
    (which.run env : Action ρ Unit) machine = .ok () machine := by
  cases which with
  | integer op | float op | boolean op | code op =>
    have few := (isShort_one rfl).mp short
    rw [← op.operands_operation] at few
    exact Action.modify_eq_self (Machine.operate_of_few few)
  | constant kind | noop stack | depth kind | frame op => simp [IsShort, operands] at short
  | quote => exact Action.modify_eq_self (Machine.quote_of_few ((isShort_one rfl).mp short))
  | choose stack => exact Action.modify_eq_self (Machine.choose_of_few ((isShort_two rfl).mp short))
  | randomCode stack => exact Environment.pushRandomCode_of_few ((isShort_one rfl).mp short) stack
  | loop stack which =>
    cases which with
    | range => exact Action.modify_eq_self (Machine.loopRange_of_few ((isShort_two rfl).mp short))
    | count =>
      exact Action.modify_eq_self (Machine.loopCount_of_few ((isShort_two rfl).mp short) id)
    | times =>
      exact Action.modify_eq_self (Machine.loopCount_of_few
        ((isShort_two rfl).mp short) Machine.withoutIndex)
  | combinator which =>
    exact Action.modify_eq_self (Machine.combine_of_few ((isShort_one rfl).mp short) env.config)
  | compareNext =>
    exact Action.modify_eq_self (Machine.compareNext_of_few ((isShort_one rfl).mp short))
  | input op =>
    cases op with
    | index =>
      exact Action.modify_eq_self
        (Machine.pushIndexedInput_of_few (.inr ((isShort_one rfl).mp short)))
    | all | allReversed | depth => simp [IsShort, operands] at short
  | move kind op => exact Action.modify_eq_self (Machine.move_of_few ((isShort_one rfl).mp short))
  | moveDeep kind op =>
    exact Action.modify_eq_self (Machine.moveDeep_of_few ((isShort_two rfl).mp short) op)

end Builtin

theorem Instruction.run_of_misses {view : View} {which : Instruction ρ}
    (misses : which.Misses view.toEnvironment machine) :
    which.run view machine = .ok () machine := by
  cases misses with
  | item few => exact Builtin.run_of_isShort few
  | @count stack which counts top =>
    cases which with
    | range => exact absurd rfl counts
    | count => exact Action.modify_eq_self (Machine.loopCount_of_not_positive top stack id)
    | times =>
      exact Action.modify_eq_self (Machine.loopCount_of_not_positive top stack Machine.withoutIndex)
  | @generator stack none =>
    obtain ⟨⟨config, eligible⟩, counts⟩ := view
    obtain rfl : eligible = [] := none
    exact Environment.pushRandomCode_of_none config stack machine
  | input none => exact Action.modify_eq_self (Machine.pushIndexedInput_of_few (.inl none))
  | inputAt absent => exact Action.modify_eq_self (Machine.pushInput_of_absent absent)

namespace Interpreter

/-- An instruction that misses an operand changes nothing. Its execution by name only takes the name
off the exec stack and counts as a step. -/
theorem unchanged_of_misses (interpreter : Interpreter ρ) {which : Instruction ρ}
    (misses : which.Misses interpreter.environment interpreter.machine) :
    which.run interpreter.view interpreter.machine = .ok () interpreter.machine ∧
    ∀ name, interpreter.instructions.get? name = some which →
      (interpreter.onMachine (Machine.schedule (.name name))).step 1 =
        (.ok 1, { interpreter with totalSteps := interpreter.totalSteps + 1 }) := by
  have nothing : which.run interpreter.view interpreter.machine = .ok () interpreter.machine :=
    Instruction.run_of_misses misses
  exact ⟨nothing, fun _ found => interpreter.step_schedule found nothing⟩

/-- A loop over a range has its two integers, and code on the exec stack, but no body on the code
stack. -/
theorem unchanged_of_misses_body :
    let interpreter : Interpreter Script := {
      instructions := .standard
      machine := { exec := [.integer 7], data := { integer := [3, 1] }, random := {} } }
    let loop : Builtin := .loop .code .range
    loop.IsShort interpreter.machine ∧
      (loop.run interpreter.environment : Action Script Unit) interpreter.machine =
        .ok () interpreter.machine ∧
      interpreter.instructions.get? loop.name = some (.builtin loop) ∧
      (interpreter.onMachine (Machine.schedule (.name loop.name))).step 1 =
        (.ok 1, { interpreter with totalSteps := 1 }) := by
  intro interpreter loop
  have short : loop.IsShort interpreter.machine := ⟨(.code, 1), by decide, by decide⟩
  have found : interpreter.instructions.get? loop.name = some (.builtin loop) :=
    InstructionSet.hasBuiltins_standard loop
  obtain ⟨nothing, step⟩ := unchanged_of_misses interpreter (.item short)
  exact ⟨short, nothing, found, step loop.name found⟩

end Interpreter

end PushLang
