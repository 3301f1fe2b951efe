import PushLang.Proofs.Generation.Code
import PushLang.Proofs.Interpreter.Operands

namespace PushLang

variable {ρ : Type} [RandomSource ρ]

namespace Environment

/-- How many points below its root random code may have for an integer; where that is none it gets
one all the same. -/
def codeLimit (env : Environment) (requested : Int32) : Nat :=
  min requested.toInt.natAbs env.config.maxRandomCodeSize

/-- How many points below its root random code has for an integer. Without a choice nothing is
drawn. -/
def codeSize (env : Environment) (requested : Int32) (source : ρ) : Nat :=
  if 0 < env.codeLimit requested then (below (env.codeLimit requested) source).1 + 1 else 1

variable (env : Environment)

theorem codeSize_pos (requested : Int32) (source : ρ) : 0 < env.codeSize requested source := by
  unfold codeSize
  split
  · exact Nat.succ_pos _
  · exact Nat.one_pos

theorem codeSize_le (requested : Int32) (source : ρ) :
    env.codeSize requested source ≤ max 1 (env.codeLimit requested) := by
  unfold codeSize
  split
  · rename_i positive
    have inside := RandomSource.below_lt _ source positive
    omega
  · exact Nat.le_max_left 1 _

variable {env}

theorem exists_boundedCode (eligible : env.eligible ≠ []) (leaves : env.MakesLeaves ρ)
    (requested : Int32) (source : ρ) :
    ∃ code rest, env.boundedCode requested source = .ok code rest ∧
      env.Grows ρ (env.codeSize requested source) code := by
  have given (size : Nat) : (env.randomCode size : Draw ρ Program).Gives (env.Grows ρ (size - 1)) :=
    randomCodeWithin_gives eligible leaves size size (Nat.le_refl size)
  unfold boundedCode codeSize codeLimit
  by_cases positive : 0 < min requested.toInt.natAbs env.config.maxRandomCodeSize
  · simp only [if_pos positive]
    exact given _ _
  · simp only [if_neg positive]
    exact given 2 source

end Environment

namespace Machine

/-- The top integer has been traded for a program on one of the stacks that hold code, and some
draws have been taken. -/
structure TradesForCode (machine : Machine ρ) (stack : CodeStack) (requested : Int32)
    (code : Program) (after : Machine ρ) :
    Prop where
  taken : machine.data.integer = requested :: after.data.integer
  pushed : after.codeItems stack = .program code :: machine.codeItems stack
  others : ∀ kind, kind ≠ .integer → kind ≠ stack.kind → after.items kind = machine.items kind
  input : after.input = machine.input
  saved : after.saved = machine.saved
  custom : after.custom = machine.custom

end Machine

namespace Interpreter

/-- With a generator that makes leaves at hand, every integer is traded for random code, whose size
is between one and the limit. Under its name the instruction is one step. -/
theorem randomCode_within_limit (interpreter : Interpreter ρ) (stack : CodeStack)
    {requested : Int32} {integers : Stack Int32}
    (eligible : interpreter.instructions.eligible ≠ [])
    (leaves : ∀ generator ∈ interpreter.instructions.eligible, generator.isLeaf = true)
    (argued : interpreter.machine.data.integer = requested :: integers) :
    ∃ code after,
      (Builtin.randomCode stack).run interpreter.environment interpreter.machine = .ok () after ∧
      (∀ name, interpreter.instructions.get? name = some (.builtin (.randomCode stack)) →
        (interpreter.onMachine (Machine.schedule (.name name))).step 1 =
          (.ok 1, { interpreter with
            machine := after
            totalSteps := interpreter.totalSteps + 1 })) ∧
      interpreter.machine.TradesForCode stack requested code after ∧
      code.size = interpreter.environment.codeSize requested interpreter.machine.random ∧
      1 ≤ code.size ∧
        code.size ≤ max 1 (min requested.toInt.natAbs interpreter.config.maxRandomCodeSize) ∧
      (interpreter.config.flatCode = true → code.nestedPoints = 0) := by
  have makesLeaves : interpreter.environment.MakesLeaves ρ := by
    rintro atom ⟨generator, member, source, rfl⟩
    exact Generator.isProgram_generate (leaves generator member) interpreter.config source
  obtain ⟨code, rest, drawn, grown⟩ :=
    Environment.exists_boundedCode eligible makesLeaves requested interpreter.machine.random
  let before : Machine ρ :=
    { interpreter.machine with
      data := { interpreter.machine.data with integer := integers }
      random := rest }
  have ran : (Builtin.randomCode stack).run interpreter.environment interpreter.machine =
      .ok () (before.setCodeItems stack (.program code :: before.codeItems stack)) := by
    have several : interpreter.environment.eligible.isEmpty = false :=
      List.isEmpty_eq_false_iff.mpr eligible
    simp only [Builtin.run, Environment.pushRandomCode, argued, several, Bool.false_eq_true,
      if_false, Action.ofDraw, drawn]
    rfl
  have traded : interpreter.machine.TradesForCode stack requested code
      (before.setCodeItems stack (.program code :: before.codeItems stack)) := by
    constructor
    case others =>
      intro kind apart other
      cases stack <;> cases kind <;> first | rfl | exact absurd rfl apart | exact absurd rfl other
    case taken => cases stack <;> exact argued
    all_goals cases stack <;> rfl
  have positive := interpreter.environment.codeSize_pos requested interpreter.machine.random
  have bounded := interpreter.environment.codeSize_le requested interpreter.machine.random
  rw [← grown.size_eq] at positive bounded
  exact ⟨code, _, ran, fun _ found => interpreter.step_schedule found ran, traded, grown.size_eq,
    positive, bounded, grown.flat⟩

/-- Flat code for the least of all integers, on top of what is still to be executed. -/
theorem randomCode_within_limit_least :
    let set : InstructionSet Script :=
      InstructionSet.literals.define "exec.rand" (.builtin (.randomCode .exec))
    let interpreter : Interpreter Script := {
      config := { maxRandomCodeSize := 3, flatCode := true }
      instructions := set.add "x" (.inputAt 0)
      machine := {
        exec := [.name "y"]
        data := { integer := [Int32.minValue, 5] }
        random := { draws := [2, 1, 0] } } }
    interpreter.instructions.eligible ≠ [] ∧
      (∀ generator ∈ interpreter.instructions.eligible, generator.isLeaf = true) ∧
      ∃ (code : Program) (after : Machine Script),
        ((interpreter.onMachine (Machine.schedule (.name "exec.rand"))).step 1).2.machine = after ∧
        after.data.integer = [5] ∧ after.exec = [.program code, .name "y"] ∧ code.size = 3 ∧
          code.nestedPoints = 0 := by
  intro set interpreter
  have leaves : ∀ generator ∈ interpreter.instructions.eligible, generator.isLeaf = true := by
    decide
  obtain ⟨code, after, -, stepped, traded, size, -, -, flat⟩ :=
    interpreter.randomCode_within_limit .exec (List.cons_ne_nil _ _) leaves rfl
  have found : interpreter.instructions.get? "exec.rand" = some (.builtin (.randomCode .exec)) := by
    change (set.define "x" (.inputAt 0)).get? "exec.rand" = _
    rw [InstructionSet.get?_define, if_neg (by decide), InstructionSet.get?_define, if_pos rfl]
  refine ⟨List.cons_ne_nil _ _, leaves, code, after, ?_, (List.cons.inj traded.taken).2.symm,
    traded.pushed, ?_, flat rfl⟩
  · rw [stepped "exec.rand" found]
  · rw [size]
    rfl

end Interpreter

end PushLang
