import PushLang.Proofs.Interpreter.Forgetting
import PushLang.Proofs.Interpreter.Plain
import PushLang.Proofs.Interpreter.Run
import PushLang.Proofs.Safety.Execution

namespace PushLang

variable {ρ : Type}

/-- The inputs and the stacks that problems add are as before. -/
structure Machine.Keeps (machine after : Machine ρ) : Prop where
  input : after.input = machine.input
  custom : after.custom = machine.custom

namespace Action

def Keeps (action : Action ρ Unit) : Prop :=
  ∀ machine : Machine ρ, machine.Keeps (action.after machine)

theorem keeps_modify {change : Machine ρ → Machine ρ}
    (kept : ∀ machine : Machine ρ, machine.Keeps (change machine)) :
    Action.Keeps (modify change) := kept

theorem IsPlain.keeps {action : Action ρ Unit} (plain : action.IsPlain) : action.Keeps := by
  intro machine
  rw [after, plain machine]
  exact ⟨rfl, rfl⟩

end Action

namespace Machine

theorem Keeps.refl (machine : Machine ρ) : machine.Keeps machine := ⟨rfl, rfl⟩

theorem Keeps.trans {machine middle after : Machine ρ} (first : machine.Keeps middle)
    (second : middle.Keeps after) :
    machine.Keeps after :=
  ⟨second.input.trans first.input, second.custom.trans first.custom⟩

variable (machine : Machine ρ)

theorem setCodeItems_keeps (stack : CodeStack) (items : Stack Atom) :
    machine.Keeps (machine.setCodeItems stack items) := by
  cases stack <;> exact ⟨rfl, rfl⟩

theorem quote_keeps : machine.Keeps machine.quote := by
  unfold quote
  split
  · exact .refl machine
  · exact ⟨rfl, rfl⟩

theorem compareNext_keeps : machine.Keeps machine.compareNext := by
  unfold compareNext
  split
  · exact ⟨rfl, rfl⟩
  · exact .refl machine

theorem combine_keeps (config : Config) (which : Combinator) :
    machine.Keeps (machine.combine config which) := by
  cases which with
  | k | y =>
    simp only [combine]
    split
    · exact ⟨rfl, rfl⟩
    · exact .refl machine
  | s =>
    simp only [combine]
    split
    · split
      · exact .refl machine
      · exact ⟨rfl, rfl⟩
    · exact .refl machine

theorem choose_keeps (stack : CodeStack) : machine.Keeps (machine.choose stack) := by
  unfold choose
  split
  · rename_i conditions _ _ rest _ _
    obtain ⟨input, custom⟩ :=
      setCodeItems_keeps { machine with data := { machine.data with boolean := conditions } } stack
        rest
    exact ⟨input, custom⟩
  · exact .refl machine

theorem loopRange_keeps (stack : CodeStack) : machine.Keeps (machine.loopRange stack) := by
  unfold loopRange
  split
  · rename_i destination current integers _ rest _ _
    obtain ⟨input, custom⟩ :=
      setCodeItems_keeps { machine with
        data := { machine.data with integer := current :: integers } } stack rest
    cases stepTowards current destination <;> exact ⟨input, custom⟩
  · exact .refl machine

theorem loopCount_keeps (stack : CodeStack) (body : Atom → Atom) :
    machine.Keeps (machine.loopCount stack body) := by
  unfold loopCount
  split
  · rename_i integers _ rest _ _
    split
    · obtain ⟨input, custom⟩ :=
        setCodeItems_keeps { machine with data := { machine.data with integer := integers } } stack
          rest
      exact ⟨input, custom⟩
    · exact .refl machine
  · exact .refl machine

theorem loop_keeps (stack : CodeStack) (which : Loop) :
    machine.Keeps (machine.loop stack which) := by
  cases which with
  | range => exact machine.loopRange_keeps stack
  | count => exact machine.loopCount_keeps stack id
  | times => exact machine.loopCount_keeps stack withoutIndex

theorem onStack_keeps (kind : StackKind) (move : {α : Type} → Stack α → Stack α) :
    machine.Keeps (machine.onStack kind move) := by
  cases kind <;> exact ⟨rfl, rfl⟩

theorem moveDeep_keeps (kind : StackKind) (op : DepthMove) :
    machine.Keeps (machine.moveDeep kind op) := by
  unfold moveDeep
  split
  · exact .refl machine
  · rename_i depth integers _
    split
    · exact .refl machine
    · obtain ⟨input, custom⟩ :=
        onStack_keeps { machine with data := { machine.data with integer := integers } } kind
        (op.apply depth.toInt.toNat)
      exact ⟨input, custom⟩

theorem closeFrame_keeps : machine.Keeps machine.closeFrame := by
  unfold closeFrame
  split
  · exact .refl machine
  · exact ⟨rfl, rfl⟩

theorem changeFrame_keeps (config : Config) (op : FrameOp) :
    machine.Keeps (machine.changeFrame config op) := by
  unfold changeFrame
  split
  · cases op with
    | push => exact ⟨rfl, rfl⟩
    | pop => exact machine.closeFrame_keeps
  · exact .refl machine

end Machine

variable [RandomSource ρ]

theorem Environment.pushRandomCode_keeps (env : Environment) (stack : CodeStack) :
    Action.Keeps (env.pushRandomCode stack : Action ρ Unit) := by
  intro machine
  cases integers : machine.data.integer with
  | nil =>
    simp only [Action.after, pushRandomCode, integers]
    exact .refl machine
  | cons requested integers =>
    by_cases eligible : env.eligible.isEmpty = true
    · simp only [Action.after, pushRandomCode, integers, if_pos eligible]
      exact .refl machine
    · cases drawn : env.boundedCode requested machine.random with
      | ok code source =>
        simp only [Action.after, pushRandomCode, Action.ofDraw, integers, if_neg eligible, drawn]
        cases stack <;> exact ⟨rfl, rfl⟩
      | error cause source =>
        simp only [Action.after, pushRandomCode, Action.ofDraw, integers, if_neg eligible, drawn]
        exact ⟨rfl, rfl⟩

theorem Builtin.run_keeps (env : Environment) (which : Builtin) :
    Action.Keeps (which.run env : Action ρ Unit) := by
  cases which with
  | integer | float | boolean | code | constant | noop | input =>
    exact (Builtin.run_isPlain env rfl).keeps
  | quote => exact Action.keeps_modify Machine.quote_keeps
  | choose stack => exact Action.keeps_modify fun machine => machine.choose_keeps stack
  | randomCode stack => exact env.pushRandomCode_keeps stack
  | loop stack which => exact Action.keeps_modify fun machine => machine.loop_keeps stack which
  | combinator which =>
    exact Action.keeps_modify fun machine => machine.combine_keeps env.config which
  | compareNext => exact Action.keeps_modify Machine.compareNext_keeps
  | move kind op => exact Action.keeps_modify fun machine => machine.onStack_keeps kind op.apply
  | moveDeep kind op => exact Action.keeps_modify fun machine => machine.moveDeep_keeps kind op
  | depth kind => exact Action.keeps_modify fun machine => ⟨rfl, rfl⟩
  | frame op => exact Action.keeps_modify fun machine => machine.changeFrame_keeps env.config op

theorem Instruction.run_keeps (view : View) {which : Instruction ρ}
    (standard : which.isStandard = true) : Action.Keeps (which.run view) := by
  cases which with
  | builtin which => exact which.run_keeps view.toEnvironment
  | inputAt index =>
    refine Action.keeps_modify fun machine => ?_
    rw [machine.pushInput_eq]
    exact ⟨rfl, rfl⟩
  | added effect => simp [isStandard] at standard

namespace InstructionSet

variable {set : InstructionSet ρ} (standard : set.IsStandard) (context : Context)

include standard

theorem execute_keeps (atom : Atom) : Action.Keeps (set.execute context atom) := by
  cases atom with
  | integer | float | boolean | program => exact Action.keeps_modify fun machine => ⟨rfl, rfl⟩
  | name text =>
    cases found : set.get? text with
    | none =>
      simp only [execute, found]
      exact Action.keeps_modify fun machine => ⟨rfl, rfl⟩
    | some which =>
      rw [execute_name found]
      exact Instruction.run_keeps _ (standard text which found)

theorem runFrom_keeps (taken budget : Nat) (machine : Machine ρ) :
    machine.Keeps (set.runFrom context taken budget machine).machine := by
  refine set.runFrom_preserves context (fun before atom rest _ kept => ?_) taken budget
    (.refl machine)
  obtain ⟨input, custom⟩ := execute_keeps standard context atom { before with exec := rest }
  exact kept.trans ⟨input, custom⟩

end InstructionSet

/-- The events that execute programs and do nothing else. -/
inductive Event.Executes : Event ρ → Prop where
  | step (budget : Nat) : Executes (.step budget)
  | execute (program : Program) (budget : Nat) : Executes (.execute program budget)
  | run (program : Program) : Executes (.run program)

namespace Interpreter

/-- The machine keeps the inputs and the stacks that problems add, and the setup is as before: the
configuration, and the instructions with what random code draws from. -/
structure Keeps (interpreter after : Interpreter ρ) : Prop where
  machine : interpreter.machine.Keeps after.machine
  instructions : after.instructions = interpreter.instructions
  config : after.config = interpreter.config

theorem step_keeps (interpreter : Interpreter ρ) (standard : interpreter.instructions.IsStandard)
    (budget : Nat) :
    interpreter.machine.Keeps (interpreter.step budget).2.machine := by
  rw [step_eq]
  exact InstructionSet.runFrom_keeps standard interpreter.context 0 budget interpreter.machine

theorem execute_keeps (interpreter : Interpreter ρ)
    (standard : interpreter.instructions.IsStandard) (program : Program) (budget : Nat) :
    interpreter.machine.Keeps (interpreter.execute program budget).2.machine := by
  have started : interpreter.machine.Keeps (interpreter.start program).machine := ⟨rfl, rfl⟩
  exact started.trans ((interpreter.start program).step_keeps standard budget)

theorem handle_keeps (interpreter : Interpreter ρ)
    (standard : interpreter.instructions.IsStandard) {event : Event ρ} (executes : event.Executes) :
    interpreter.machine.Keeps (interpreter.handle event).machine := by
  cases executes with
  | step budget => exact interpreter.step_keeps standard budget
  | execute program budget => exact interpreter.execute_keeps standard program budget
  | run program =>
    exact interpreter.execute_keeps standard program interpreter.config.executionLimit

/-- Whatever programs are executed, with the built-in instructions and those for inputs the inputs
and the stacks that problems add stay as they are, and so does the setup. So every input can be read
at any time. -/
theorem programs_keep_inputs (interpreter : Interpreter ρ)
    (standard : interpreter.instructions.IsStandard) (past : List (Event ρ))
    (executes : ∀ event ∈ past, event.Executes) :
    interpreter.Keeps (interpreter.afterAll past) ∧
      ∀ index value, interpreter.machine.input.get? index = some value →
        (Instruction.inputAt index).run (interpreter.afterAll past).view
          (interpreter.afterAll past).machine =
          .ok () ((interpreter.afterAll past).machine.push value) := by
  have kept : interpreter.machine.Keeps (interpreter.afterAll past).machine := by
    induction past generalizing interpreter with
    | nil => exact .refl interpreter.machine
    | cons event past ih =>
      obtain ⟨first, others⟩ := List.forall_mem_cons.mp executes
      have later : (interpreter.handle event).instructions.IsStandard := by
        rwa [(interpreter.handle_setup event).2]
      exact (interpreter.handle_keeps standard first).trans
        (ih (interpreter.handle event) later others)
  obtain ⟨config, instructions⟩ := interpreter.afterAll_setup past
  refine ⟨⟨kept, instructions, config⟩, fun index value present => ?_⟩
  rw [← kept.input] at present
  change EStateM.Result.ok () ((interpreter.afterAll past).machine.pushInput index) = _
  simp only [Machine.pushInput, present]

/-- A program that closes a frame of its own and drops the rest of itself, for a case with two
inputs and a further stack. -/
theorem programs_keep_inputs_frames :
    let instructions : InstructionSet Script := .add .standard "input.in1" (.inputAt 1)
    let machine : Machine Script :=
      { input := [.integer 7, .program []], custom := [[.boolean true]], random := {} }
    let interpreter : Interpreter Script :=
      { config := { frameMode := true }, instructions, machine }
    let past : List (Event Script) :=
      [.execute [.name "input.in1", .name "frame.pop", .name "exec.flush", .name "integer.pop"] 40,
        .step 5]
    let after := interpreter.afterAll past
    instructions.IsStandard ∧ (∀ event ∈ past, event.Executes) ∧
      machine.input.get? 1 = some (.integer 7) ∧ interpreter.Keeps after ∧
      (Instruction.inputAt 1).run after.view after.machine =
        .ok () (after.machine.push (.integer 7)) := by
  intro instructions machine interpreter past after
  have standard : instructions.IsStandard :=
    InstructionSet.isStandard_standard.define "input.in1" rfl
  have executes : ∀ event ∈ past, event.Executes :=
    List.forall_mem_cons.mpr ⟨.execute _ 40, List.forall_mem_singleton.mpr (.step 5)⟩
  have present : machine.input.get? 1 = some (.integer 7) := rfl
  obtain ⟨keeps, readable⟩ := programs_keep_inputs interpreter standard past executes
  exact ⟨standard, executes, present, keeps, readable 1 (.integer 7) present⟩

end Interpreter

end PushLang
