import PushLang.Proofs.Interpreter.Run
import PushLang.Proofs.Safety.Execution

namespace PushLang

variable {ρ : Type} [RandomSource ρ]

/-- The instruction does the same where the counts are changed. -/
def Instruction.Ignores (change : Counts → Counts) (instruction : Instruction ρ) : Prop :=
  ∀ view : View, instruction.run { view with counts := change view.counts } = instruction.run view

theorem Instruction.ignores_of_isStandard {instruction : Instruction ρ}
    (standard : instruction.isStandard = true) (change : Counts → Counts) :
    instruction.Ignores change := by
  cases instruction with
  | builtin | inputAt => exact fun view => rfl
  | added effect => simp [isStandard] at standard

namespace InstructionSet

/-- No instruction does anything else where the counts are changed. -/
def Ignores (set : InstructionSet ρ) (change : Counts → Counts) : Prop :=
  ∀ name, ∀ instruction ∈ set.get? name, instruction.Ignores change

/-- No instruction reads any of the counts. -/
def IgnoresCounts (set : InstructionSet ρ) : Prop := ∀ counts, set.Ignores fun _ => counts

variable {set : InstructionSet ρ} {change : Counts → Counts}

theorem IsStandard.ignores (standard : set.IsStandard) (change : Counts → Counts) :
    set.Ignores change := fun name instruction found =>
  Instruction.ignores_of_isStandard (standard name instruction found) change

theorem Ignores.define (ignores : set.Ignores change) (name : String)
    {instruction : Instruction ρ} (also : instruction.Ignores change) :
    (set.define name instruction).Ignores change := by
  intro other which found
  rw [get?_define] at found
  split at found
  · obtain rfl := Option.some.inj found
    exact also
  · exact ignores other which found

variable (ignores : set.Ignores change) (context : Context)

include ignores

theorem Ignores.execute (atom : Atom) :
    set.execute { context with counts := change context.counts } atom =
      set.execute context atom := by
  cases atom with
  | integer | float | boolean | program => rfl
  | name text =>
    cases found : set.get? text with
    | none => simp only [InstructionSet.execute, found]
    | some instruction =>
      rw [execute_name found, execute_name found]
      exact ignores text instruction found ⟨⟨context, set.eligible⟩, context.counts⟩

theorem Ignores.runFrom (taken budget : Nat) (machine : Machine ρ) :
    set.runFrom { context with counts := change context.counts } taken budget machine =
      set.runFrom context taken budget machine := by
  induction budget generalizing taken machine with
  | zero => rfl
  | succ budget ih => simp only [InstructionSet.runFrom, ignores.execute, ih]

end InstructionSet

end PushLang
