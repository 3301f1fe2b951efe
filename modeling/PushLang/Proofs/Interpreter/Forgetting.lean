import PushLang.Proofs.Interpreter.Counts
import PushLang.Regression

namespace PushLang

variable {ρ : Type}

/-- A change of stacks from outside of programs. -/
inductive Edit where
  | data (change : Stacks → Stacks)
  | exec (change : Stack Atom → Stack Atom)
  | input (change : Stack Atom → Stack Atom)
  | custom (index : Nat) (change : Stack Atom → Stack Atom)

def Machine.edit (machine : Machine ρ) : Edit → Machine ρ
  | .data change => { machine with data := change machine.data }
  | .exec change => { machine with exec := change machine.exec }
  | .input change => { machine with input := change machine.input }
  | .custom index change => { machine with custom := machine.custom.modify index change }

/-- What can happen to an interpreter once it is set up. -/
inductive Event (ρ : Type) where
  | load (program : Program)
  | step (budget : Nat)
  | execute (program : Program) (budget : Nat)
  | run (program : Program)
  | evaluateCase (program : Program) (seed : Machine ρ → Machine ρ)
  | pushFrame
  | popFrame
  | clear
  | addCustomStack
  | edit (change : Edit)

/-- Clearing forgets all but the random source and the number of custom stacks. -/
theorem Machine.clear_eq (machine : Machine ρ) :
    machine.clear =
      { custom := List.replicate machine.custom.length [], random := machine.random } := by
  simp only [clear, Stacks.clear, List.map_const']

/-- What a run returns: the atoms it took, or the error that ended it. -/
def Run.result (run : Run ρ) : Except Error Nat :=
  match run.failure with
  | some cause => .error cause
  | none => .ok run.taken

namespace Interpreter

variable [RandomSource ρ]

/-- Two interpreters that differ at most in what the past left on their stacks and in their counts,
which no instruction reads. -/
structure Alike (one other : Interpreter ρ) : Prop where
  ignores : one.instructions.IgnoresCounts
  config : one.config = other.config
  instructions : one.instructions = other.instructions
  custom : one.machine.custom.length = other.machine.custom.length
  random : one.machine.random = other.machine.random

/-- A step leaves behind the machine of its run and counts the atoms taken, if it does not fail. -/
theorem step_eq (interpreter : Interpreter ρ) (budget : Nat) :
    interpreter.step budget =
      let run := interpreter.instructions.run interpreter.context budget interpreter.machine
      (run.result, { interpreter with
        machine := run.machine
        totalSteps := interpreter.totalSteps + run.result.toOption.getD 0 }) := by
  unfold step Run.result
  generalize interpreter.instructions.run interpreter.context budget interpreter.machine = run
  obtain ⟨machine, taken, failure⟩ := run
  cases failure with
  | none | some => rfl

/-- The interpreter that an event leaves behind, also where a program fails. -/
def handle (interpreter : Interpreter ρ) : Event ρ → Interpreter ρ
  | .load program => interpreter.onMachine fun machine => machine.load program
  | .step budget => (interpreter.step budget).2
  | .execute program budget => (interpreter.execute program budget).2
  | .run program => (interpreter.run program).2
  | .evaluateCase program seed => (interpreter.evaluateCase program seed).2
  | .pushFrame => interpreter.pushFrame
  | .popFrame => interpreter.popFrame
  | .clear => interpreter.onMachine Machine.clear
  | .addCustomStack => interpreter.onMachine Machine.addCustomStack
  | .edit change => interpreter.onMachine fun machine => machine.edit change

/-- The interpreter after some events, the first one first. -/
def afterAll (interpreter : Interpreter ρ) (past : List (Event ρ)) : Interpreter ρ :=
  past.foldl handle interpreter

theorem handle_setup (interpreter : Interpreter ρ) (event : Event ρ) :
    (interpreter.handle event).config = interpreter.config ∧
      (interpreter.handle event).instructions = interpreter.instructions := by
  cases event with
  | load | pushFrame | popFrame | clear | addCustomStack | edit => exact ⟨rfl, rfl⟩
  | step | execute | run | evaluateCase =>
    simp only [handle, execute, Interpreter.run, evaluateCase, onMachine, start, step_eq, and_self]

theorem afterAll_setup (interpreter : Interpreter ρ) (past : List (Event ρ)) :
    (interpreter.afterAll past).config = interpreter.config ∧
      (interpreter.afterAll past).instructions = interpreter.instructions := by
  induction past generalizing interpreter with
  | nil => exact ⟨rfl, rfl⟩
  | cons event past ih =>
    obtain ⟨config, instructions⟩ := handle_setup interpreter event
    rw [← config, ← instructions]
    exact ih (interpreter.handle event)

/-- The run of a case starts from a clear machine. -/
def caseRun (interpreter : Interpreter ρ) (program : Program) (seed : Machine ρ → Machine ρ) :
    Run ρ :=
  interpreter.instructions.run (interpreter.start program).context interpreter.config.executionLimit
    ((seed interpreter.machine.clear).load program)

theorem evaluateCase_eq (interpreter : Interpreter ρ) (program : Program)
    (seed : Machine ρ → Machine ρ) :
    (interpreter.evaluateCase program seed).1 = (interpreter.caseRun program seed).result ∧
      (interpreter.evaluateCase program seed).2.machine =
        (interpreter.caseRun program seed).machine := by
  simp only [evaluateCase, run, execute, step_eq, caseRun]
  exact ⟨rfl, rfl⟩

namespace Alike

variable {one other : Interpreter ρ}

theorem caseRun (alike : one.Alike other) (program : Program) (seed : Machine ρ → Machine ρ) :
    one.caseRun program seed = other.caseRun program seed := by
  have cleared : one.machine.clear = other.machine.clear := by
    rw [Machine.clear_eq, Machine.clear_eq, alike.custom, alike.random]
  have context : (other.start program).context =
      { (one.start program).context with counts := (other.start program).counts } := by
    simp only [Interpreter.context, start, alike.config]
  have counted := (alike.ignores (other.start program).counts).runFrom (one.start program).context 0
    one.config.executionLimit ((seed one.machine.clear).load program)
  rw [Interpreter.caseRun, Interpreter.caseRun, context, ← alike.config, ← alike.instructions,
    ← cleared]
  exact counted.symm

theorem evaluateCase (alike : one.Alike other) (program : Program) (seed : Machine ρ → Machine ρ) :
    (one.evaluateCase program seed).1 = (other.evaluateCase program seed).1 ∧
      (one.evaluateCase program seed).2.machine = (other.evaluateCase program seed).2.machine := by
  obtain ⟨result, machine⟩ := evaluateCase_eq one program seed
  obtain ⟨otherResult, otherMachine⟩ := evaluateCase_eq other program seed
  have same := alike.caseRun program seed
  constructor
  · rw [result, otherResult, same]
  · rw [machine, otherMachine, same]

theorem after (alike : one.Alike other) (program : Program) (seed : Machine ρ → Machine ρ) :
    (one.evaluateCase program seed).2.Alike (other.evaluateCase program seed).2 := by
  obtain ⟨-, machine⟩ := alike.evaluateCase program seed
  obtain ⟨config, instructions⟩ := handle_setup one (.evaluateCase program seed)
  obtain ⟨otherConfig, otherInstructions⟩ := handle_setup other (.evaluateCase program seed)
  constructor
  · change (one.handle (.evaluateCase program seed)).instructions.IgnoresCounts
    rw [instructions]
    exact alike.ignores
  · exact config.trans (alike.config.trans otherConfig.symm)
  · exact instructions.trans (alike.instructions.trans otherInstructions.symm)
  · rw [machine]
  · rw [machine]

end Alike

end Interpreter

namespace Regression

variable [RandomSource ρ] {one other : Interpreter ρ}

theorem caseError_alike (problem : Regression) (alike : one.Alike other) (program : Program)
    (case : Case) :
    (problem.caseError one program case).1 = (problem.caseError other program case).1 ∧
      (problem.caseError one program case).2.Alike (problem.caseError other program case).2 := by
  obtain ⟨result, machine⟩ := alike.evaluateCase program (problem.seed case.input)
  have after := alike.after program (problem.seed case.input)
  unfold caseError
  generalize one.evaluateCase program (problem.seed case.input) = first at *
  generalize other.evaluateCase program (problem.seed case.input) = second at *
  obtain ⟨firstResult, firstAfter⟩ := first
  obtain ⟨secondResult, secondAfter⟩ := second
  obtain rfl : firstResult = secondResult := result
  cases firstResult with
  | error cause => exact ⟨rfl, after⟩
  | ok taken =>
    refine ⟨?_, after⟩
    exact congrArg (fun machine => Except.ok (problem.errorOf case.output machine.data.float.top?))
      machine

theorem caseErrors_alike (problem : Regression) (alike : one.Alike other) (program : Program)
    (cases : List Case) :
    (problem.caseErrors program one cases).1 = (problem.caseErrors program other cases).1 := by
  induction cases generalizing one other with
  | nil => rfl
  | cons case rest ih =>
    obtain ⟨result, after⟩ := problem.caseError_alike alike program case
    unfold caseErrors
    generalize problem.caseError one program case = first at *
    generalize problem.caseError other program case = second at *
    obtain ⟨firstResult, firstAfter⟩ := first
    obtain ⟨secondResult, secondAfter⟩ := second
    obtain rfl : firstResult = secondResult := result
    cases firstResult with
    | error cause => rfl
    | ok error => exact congrArg (Except.map (error :: ·)) (ih after)

theorem evaluate_alike (problem : Regression) (alike : one.Alike other) (program : Program) :
    (problem.evaluate one program).1 = (problem.evaluate other program).1 :=
  congrArg (Except.map fun errors => Fitness.ofErrors errors problem.threshold)
    (problem.caseErrors_alike alike program problem.cases)

end Regression

namespace Interpreter

variable [RandomSource ρ]

/-- A case is evaluated alike whatever happened before: interpreters with the same setup, the same
random source and the same number of custom stacks return the same and end with the same machine,
as long as no instruction reads the counts. So the fitness of a program does not depend on what was
evaluated before. -/
theorem evaluateCase_forgets {one other : Interpreter ρ} (config : one.config = other.config)
    (instructions : one.instructions = other.instructions)
    (ignores : one.instructions.IgnoresCounts) (past others : List (Event ρ))
    (custom : (one.afterAll past).machine.custom.length =
      (other.afterAll others).machine.custom.length)
    (random : (one.afterAll past).machine.random = (other.afterAll others).machine.random)
    (program : Program) (seed : Machine ρ → Machine ρ) :
    ((one.afterAll past).evaluateCase program seed).1 =
      ((other.afterAll others).evaluateCase program seed).1 ∧
      ((one.afterAll past).evaluateCase program seed).2.machine =
        ((other.afterAll others).evaluateCase program seed).2.machine ∧
      ∀ problem : Regression,
        (problem.evaluate (one.afterAll past) program).1 =
        (problem.evaluate (other.afterAll others) program).1 := by
  have alike : (one.afterAll past).Alike (other.afterAll others) := by
    obtain ⟨configOne, instructionsOne⟩ := one.afterAll_setup past
    obtain ⟨configOther, instructionsOther⟩ := other.afterAll_setup others
    constructor
    · rwa [instructionsOne]
    · exact configOne.trans (config.trans configOther.symm)
    · exact instructionsOne.trans (instructions.trans instructionsOther.symm)
    · exact custom
    · exact random
  obtain ⟨result, machine⟩ := alike.evaluateCase program seed
  exact ⟨result, machine, fun problem => problem.evaluate_alike alike program⟩

/-- A program that failed inside of a frame is forgotten. -/
theorem evaluateCase_forgets_failure :
    let failing : Instruction Script := .added fun _ machine => .error (.state "stopped") machine
    let fresh : Interpreter Script := {
      config := { frameMode := true }
      instructions := InstructionSet.literals.define "stop" failing
      machine := { custom := [[]], random := {} } }
    let past : List (Event Script) :=
      [.edit (.custom 0 fun _ => [.boolean true]), .pushFrame, .load [.integer 1],
        .edit (.exec fun exec => .float 2 :: .name "stop" :: exec), .step 10]
    fresh.instructions.IgnoresCounts ∧
      (fresh.afterAll past).machine.saved ≠ [] ∧ (fresh.afterAll past).machine.exec ≠ [] ∧
      (fresh.afterAll past).machine.custom.length = (fresh.afterAll []).machine.custom.length ∧
      (fresh.afterAll past).machine.random = (fresh.afterAll []).machine.random ∧
      ((fresh.afterAll past).evaluateCase [.integer 3] id).1 =
        (fresh.evaluateCase [.integer 3] id).1 ∧
      ((fresh.afterAll past).evaluateCase [.integer 3] id).2.machine =
        (fresh.evaluateCase [.integer 3] id).2.machine ∧
      ∀ problem : Regression,
        (problem.evaluate (fresh.afterAll past) [.integer 3]).1 =
          (problem.evaluate fresh [.integer 3]).1 := by
  intro failing fresh past
  have ignores : fresh.instructions.IgnoresCounts := fun counts =>
    (InstructionSet.isStandard_literals.ignores fun _ => counts).define "stop" fun _ => rfl
  have stopped : (fresh.afterAll past).machine = {
      exec := [.program [.integer 1]]
      data := {
        integer := [0]
        float := [2, 0]
        boolean := [false]
        code := [.program [.integer 1]] }
      saved := [{}]
      custom := [[.boolean true]]
      random := {} } := rfl
  have custom :
      (fresh.afterAll past).machine.custom.length = (fresh.afterAll []).machine.custom.length := by
    rw [stopped]
    rfl
  have random : (fresh.afterAll past).machine.random = (fresh.afterAll []).machine.random := by
    rw [stopped]
    rfl
  obtain ⟨result, machine, fitness⟩ :=
    evaluateCase_forgets rfl rfl ignores past [] custom random [.integer 3] id
  exact ⟨ignores, by simp [stopped], by simp [stopped], custom, random, result, machine, fitness⟩

end Interpreter

end PushLang
