import PushLang.Proofs.InstructionSet.Builtins
import PushLang.Proofs.Safety.Builtin
import PushLang.Random.Script

namespace PushLang

variable {ρ : Type}

/-- Whether an instruction is built in or pushes an input. -/
def Instruction.isStandard : Instruction ρ → Bool
  | .builtin _ | .inputAt _ => true
  | .added _ => false

namespace InstructionSet

/-- Every instruction is built in or pushes an input. -/
def IsStandard (set : InstructionSet ρ) : Prop :=
  ∀ name, ∀ which ∈ set.get? name, which.isStandard = true

theorem IsStandard.define {set : InstructionSet ρ} (standard : set.IsStandard) (name : String)
    {which : Instruction ρ} (allowed : which.isStandard = true) :
    (set.define name which).IsStandard := by
  intro other found member
  rw [get?_define] at member
  split at member
  · obtain rfl := Option.some.inj member
    exact allowed
  · exact standard other found member

theorem isStandard_literals :
    (literals : InstructionSet ρ).IsStandard := fun name which member => by
  simp [get?, literals] at member

theorem isStandard_standard : (standard : InstructionSet ρ).IsStandard :=
  standard_keeps isStandard_literals fun _ which held => held.define which.name rfl

theorem IsStandard.configure {set : InstructionSet ρ} (standard : set.IsStandard) (list : Program) :
    (set.configure list).2.IsStandard :=
  configure_keeps (fun _ index held => held.define (inputName index) rfl)
    (fun _ _ held => held) standard list

end InstructionSet

namespace Checked

variable [RandomSource ρ]

theorem instruction_passes (view : View) {which : Instruction ρ}
    (standard : which.isStandard = true) :
    (instruction view which).Passes (which.run view) := by
  cases which with
  | builtin which => exact builtin_passes view.toEnvironment which
  | inputAt index => exact .modify fun machine => rfl
  | added effect => simp [Instruction.isStandard] at standard

variable (set : InstructionSet ρ) (context : Context)

/-- Executes an atom in checked steps. -/
def execute : Atom → Checked (Machine ρ) Unit
  | .name text => match set.get? text with
    | some which => instruction (set.view context) which
    | none => modify fun machine => machine.push (.name text)
  | .program body =>
    modify fun machine => { machine with exec := unfold context body ++ machine.exec }
  | atom => modify fun machine => machine.push atom

/-- Executes atoms in checked steps while there are any and the budget allows, and counts them. -/
def runFrom (taken : Nat) : Nat → Checked (Machine ρ) Nat
  | 0 => pure taken
  | budget + 1 => do
    match (← get).exec with
    | [] => pure taken
    | atom :: rest => do
      modify fun machine => { machine with exec := rest }
      execute set context atom
      runFrom (taken + 1) budget

def run (budget : Nat) : Checked (Machine ρ) Nat := runFrom set context 0 budget

variable {set}

theorem execute_passes (standard : set.IsStandard) (atom : Atom) :
    (execute set context atom).Passes (set.execute context atom) := by
  cases atom with
  | integer value | float value | boolean value | program body => exact .modify fun machine => rfl
  | name text =>
    cases found : set.get? text with
    | none =>
      simp only [execute, InstructionSet.execute, found]
      exact .modify fun machine => rfl
    | some which =>
      simp only [execute, InstructionSet.execute, found]
      exact instruction_passes (set.view context) (standard text which found)

theorem runFrom_eq (standard : set.IsStandard) (taken budget : Nat) (machine : Machine ρ) :
    ∃ more after, more ≤ budget ∧ (more = budget ∨ after.exec = []) ∧
      set.runFrom context taken budget machine = ⟨after, taken + more, none⟩ ∧
      runFrom set context taken budget machine = .ok (taken + more) after := by
  -- Atoms taken before only shift the count, so that the rest of a run is a run of a smaller
  -- budget.
  induction budget generalizing taken machine with
  | zero => exact ⟨0, machine, Nat.le_refl 0, .inl rfl, rfl, rfl⟩
  | succ budget ih =>
    cases pending : machine.exec with
    | nil =>
      refine ⟨0, machine, Nat.zero_le _, .inr pending, ?_, ?_⟩
      · simp only [InstructionSet.runFrom, pending, Nat.add_zero]
      · simp only [runFrom, bind_apply, get_apply, pending, pure_apply, Nat.add_zero]
    | cons atom rest =>
      obtain ⟨⟨⟩, middle, plainStep, checkedStep⟩ :=
        execute_passes context standard atom { machine with exec := rest }
      obtain ⟨more, after, within, ended, plainRest, checkedRest⟩ := ih (taken + 1) middle
      have counted : taken + (more + 1) = taken + 1 + more := by omega
      refine ⟨more + 1, after, Nat.succ_le_succ within, ended.imp_left (congrArg (· + 1)), ?_, ?_⟩
      · simp only [InstructionSet.runFrom, pending, plainStep, plainRest, counted]
      · simp only [runFrom, bind_apply, get_apply, pending, modify_apply, checkedStep, checkedRest,
          counted]

end Checked

namespace Interpreter

theorem instructions_of_configure_new {interpreter : Interpreter ρ} {config : Config} {random : ρ}
    {list : Program} (made : interpreter = ((Interpreter.new config random).configure list).2) :
    interpreter.instructions = (InstructionSet.standard.configure list).2 := by
  simp only [made, configure, Interpreter.new]

variable [RandomSource ρ]

/-- With the built-in instructions and those for inputs, no check stops an instruction or a program
on any machine. An instruction does in checked steps what it does without them and does not fail,
and a program is executed until its budget is spent or nothing is left to execute. -/
theorem never_fails (interpreter : Interpreter ρ) (standard : interpreter.instructions.IsStandard) :
    (∀ name, ∀ which ∈ interpreter.instructions.get? name,
      (Checked.instruction interpreter.view which).Passes (which.run interpreter.view)) ∧
    ∀ program budget, ∃ taken after, interpreter.execute program budget = (.ok taken, after) ∧
      Checked.run interpreter.instructions (interpreter.start program).context budget
        (interpreter.machine.load program) = .ok taken after.machine ∧
      taken ≤ budget ∧ (taken = budget ∨ after.machine.exec = []) := by
  constructor
  · intro name which found
    exact Checked.instruction_passes interpreter.view (standard name which found)
  · intro program budget
    obtain ⟨taken, after, within, ended, plain, checked⟩ :=
      Checked.runFrom_eq (interpreter.start program).context standard 0 budget
        (interpreter.machine.load program)
    rw [Nat.zero_add] at plain checked
    refine ⟨taken, { interpreter.start program with
      machine := after
      totalSteps := interpreter.totalSteps + taken }, ?_, checked, within, ended⟩
    have ran : (interpreter.start program).instructions.run
      (interpreter.start program).context budget
        (interpreter.start program).machine = ⟨after, taken, none⟩ := plain
    simp only [execute, step, ran]
    rfl

/-- Random code for the exec stack, drawn from two inputs, integers and loops. -/
theorem never_fails_random :
    let list : Program := [.name "input.makeinputs2", .name "integer.erc", .name "exec.do*range"]
    let interpreter := ((Interpreter.new { frameMode := true } ({} : Script)).configure list).2
    let random : Builtin := .randomCode .exec
    interpreter.instructions.IsStandard ∧
      interpreter.instructions.get? random.name = some (.builtin random) ∧
      (Checked.instruction interpreter.view (.builtin random)).Passes
        (random.run interpreter.view.toEnvironment : Action Script Unit) ∧
      ∃ taken after,
        interpreter.execute [.integer (-2147483648), .name random.name] 50 = (.ok taken, after) ∧
        taken ≤ 50 ∧ (taken = 50 ∨ after.machine.exec = []) := by
  intro list interpreter random
  have selected : interpreter.instructions = (InstructionSet.standard.configure list).2 :=
    instructions_of_configure_new rfl
  have standard : interpreter.instructions.IsStandard := by
    rw [selected]
    exact InstructionSet.isStandard_standard.configure list
  have named : interpreter.instructions.get? random.name = some (.builtin random) := by
    rw [selected]
    exact InstructionSet.hasBuiltins_standard.configure list random
  obtain ⟨instructions, programs⟩ := never_fails interpreter standard
  obtain ⟨taken, after, executed, -, within, ended⟩ :=
    programs [.integer (-2147483648), .name random.name] 50
  exact ⟨standard, named, instructions random.name _ named, taken, after, executed, within, ended⟩

end Interpreter

end PushLang
