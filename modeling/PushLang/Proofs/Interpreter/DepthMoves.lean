import PushLang.Proofs.Interpreter.Run
import PushLang.Proofs.Machine.Items
import PushLang.Proofs.Stack.Positions
import PushLang.Random.Script

namespace PushLang

namespace Machine

variable {ρ : Type}

def withIntegers (machine : Machine ρ) (integers : Stack Int32) : Machine ρ :=
  { machine with data := { machine.data with integer := integers } }

/-- A move to a depth that is on the integer stack. The depth is taken only if something is left to
move then. -/
inductive MovesDeep (kind : StackKind) (op : DepthMove) (machine : Machine ρ) :
    Machine ρ → Prop where
  | noArgument (none : machine.data.integer = []) : MovesDeep kind op machine machine
  | noItem {argument : Int32} {integers : Stack Int32}
      (argued : machine.data.integer = argument :: integers)
      (bare : (machine.withIntegers integers).depth kind = 0) : MovesDeep kind op machine machine
  | moved {argument : Int32} {integers : Stack Int32} {position : Nat} {after : Machine ρ}
      (argued : machine.data.integer = argument :: integers)
        (present : (machine.withIntegers integers).depth kind ≠ 0)
      (clamped : (position : Int) =
        max 0 (min argument.toInt ((machine.withIntegers integers).depth kind - 1)))
      (moves : op.Moves position ((machine.withIntegers integers).items kind) (after.items kind))
      (outside : (machine.withIntegers integers).AgreesOutside kind after) :
        MovesDeep kind op machine after

variable {machine : Machine ρ} {argument : Int32}

theorem depth_withIntegers {kind : StackKind} {integers : Stack Int32}
    (argued : machine.data.integer = argument :: integers)
    (several : ¬ (kind = .integer ∧ machine.depth .integer = 1)) :
    (machine.withIntegers integers).depth kind = 0 ↔ machine.depth kind = 0 := by
  cases kind with
  | integer =>
    simp only [depth, Stack.depth, argued, List.length_cons, true_and] at several
    simp only [depth, Stack.depth, withIntegers, argued, List.length_cons]
    omega
  | float | boolean | name | code | exec => exact Iff.rfl

theorem moveDeep_moves {kind : StackKind} (op : DepthMove)
    (several : ¬ (kind = .integer ∧ machine.depth .integer = 1)) :
    machine.MovesDeep kind op (machine.moveDeep kind op) := by
  unfold moveDeep
  split
  · rename_i none
    exact .noArgument none
  · rename_i argument integers argued
    have sameDepth := depth_withIntegers argued several
    by_cases bare : machine.depth kind = 0
    · rw [if_pos bare]
      exact .noItem argued (sameDepth.mpr bare)
    · rw [if_neg bare]
      have left : (machine.withIntegers integers).depth kind ≠ 0 := fun none =>
        bare (sameDepth.mp none)
      have present : (machine.withIntegers integers).items kind ≠ [] := by
        rwa [depth_eq, ne_eq, List.length_eq_zero_iff] at left
      change machine.MovesDeep kind op ((machine.withIntegers integers).onStack kind
        (op.apply argument.toInt.toNat))
      rw [onStack_eq]
      have moves := op.apply_moves present argument.toInt.toNat
      rw [← items_setItems (machine.withIntegers integers) kind (op.apply _ _)] at moves
      refine .moved argued left ?_ moves (setItems_agreesOutside _ kind _)
      rw [depth_eq] at left ⊢
      unfold Stack.clamp
      omega

/-- A lone integer is its own depth and gets lost. -/
theorem moveDeep_lone (lone : machine.data.integer = [argument]) (op : DepthMove) :
    machine.moveDeep .integer op = machine.withIntegers [] := by
  simp only [moveDeep, lone, depth, Stack.depth]
  cases op <;> rfl

theorem not_movesDeep_lone (lone : machine.data.integer = [argument]) (op : DepthMove) :
    ¬ machine.MovesDeep .integer op (machine.withIntegers []) := by
  intro moves
  generalize result : machine.withIntegers [] = after at moves
  have emptied : after.data.integer = [] := by rw [← result]; rfl
  cases moves with
  | noArgument | noItem argued bare => simp [lone] at emptied
  | moved argued present =>
    rw [lone] at argued
    obtain ⟨rfl, rfl⟩ := argued
    exact present rfl

end Machine

namespace Interpreter

variable {ρ : Type} [RandomSource ρ]

/-- A move to a depth takes the depth only if it has something to move, but for one case: on a stack
of a single integer it takes that integer. Under its name the move is one step. -/
theorem moveDeep_exact_iff (interpreter : Interpreter ρ) (kind : StackKind) (op : DepthMove) :
    ∃ after,
      (Builtin.moveDeep kind op).run interpreter.environment interpreter.machine = .ok () after ∧
      (∀ name, interpreter.instructions.get? name = some (.builtin (.moveDeep kind op)) →
        (interpreter.onMachine (Machine.schedule (.name name))).step 1 =
          (.ok 1, { interpreter with
            machine := after
            totalSteps := interpreter.totalSteps + 1 })) ∧
      (interpreter.machine.MovesDeep kind op after ↔
        ¬ (kind = .integer ∧ interpreter.machine.depth .integer = 1)) ∧
      (kind = .integer → interpreter.machine.depth .integer = 1 →
        after = interpreter.machine.withIntegers []) := by
  refine ⟨interpreter.machine.moveDeep kind op, rfl,
    fun _ found => interpreter.step_schedule found rfl, ⟨?_, Machine.moveDeep_moves op⟩, ?_⟩
  · rintro moves ⟨rfl, single⟩
    obtain ⟨argument, lone⟩ := List.length_eq_one_iff.mp single
    rw [Machine.moveDeep_lone lone] at moves
    exact Machine.not_movesDeep_lone lone op moves
  · rintro rfl single
    obtain ⟨argument, lone⟩ := List.length_eq_one_iff.mp single
    exact Machine.moveDeep_lone lone op

/-- There is nothing to yank once the depth is taken, and yet it is gone. -/
theorem moveDeep_takes_lone_integer :
    let interpreter : Interpreter Script :=
      { instructions := .standard, machine := { data := { integer := [5] }, random := {} } }
    ∃ after, (Builtin.moveDeep .integer .yank).run interpreter.environment interpreter.machine =
      .ok () after ∧
      after.data.integer = [] ∧ ¬ interpreter.machine.MovesDeep .integer .yank after := by
  intro interpreter
  exact ⟨interpreter.machine.withIntegers [], rfl, rfl, Machine.not_movesDeep_lone rfl .yank⟩

end Interpreter

end PushLang
