import PushLang.Proofs.Interpreter.Sequence
import PushLang.Random.Script

namespace PushLang

variable {ρ : Type} [RandomSource ρ]

namespace InstructionSet

/-- What a leaf does by itself: a literal goes onto the stack of its kind, and a name onto the stack
of names unless there is an instruction to run. -/
def applyLeaf (set : InstructionSet ρ) (context : Context) (machine : Machine ρ) : Atom → Machine ρ
  | .integer value =>
    { machine with data := { machine.data with integer := value :: machine.data.integer } }
  | .float value =>
    { machine with data := { machine.data with float := value :: machine.data.float } }
  | .boolean value =>
    { machine with data := { machine.data with boolean := value :: machine.data.boolean } }
  | .name text => match set.get? text with
    | none => { machine with data := { machine.data with name := text :: machine.data.name } }
    | some instruction =>
        match instruction.run ⟨⟨context, set.eligible⟩, context.counts⟩ machine with
      | .ok _ after | .error _ after => after
  | .program _ => machine

variable {set : InstructionSet ρ} (context : Context)

theorem applyLeaf_eq {leaf : Atom} (plain : set.IsPlain context leaf) (machine : Machine ρ) :
    set.applyLeaf context machine leaf =
      machine.apply (Action.update (set.execute context leaf)) := by
  have executed := execute_isPlain plain machine
  cases leaf with
  | program body => exact False.elim plain
  | integer value | float value | boolean value => exact (EStateM.Result.ok.inj executed).2
  | name text =>
    unfold applyLeaf
    cases found : set.get? text with
    | none =>
      simp only [execute, found] at executed ⊢
      exact (EStateM.Result.ok.inj executed).2
    | some instruction =>
      simp only [execute, found, view] at executed ⊢
      rw [executed]

theorem foldl_applyLeaf {leaves : List Atom} (plain : ∀ leaf ∈ leaves, set.IsPlain context leaf)
    (machine : Machine ρ) :
    leaves.foldl (set.applyLeaf context) machine = machine.apply (set.updates context leaves) := by
  induction leaves generalizing machine with
  | nil => rfl
  | cons leaf leaves ih =>
    obtain ⟨first, later⟩ := List.forall_mem_cons.mp plain
    rw [List.foldl_cons, applyLeaf_eq context first, ih later]
    rfl

theorem reaches_foldl_applyLeaf (frameless : context.frameMode = false) {program : Program}
    (plain : ∀ leaf ∈ program.leaves, set.IsPlain context leaf) (machine : Machine ρ)
    (rest : Stack Atom) :
    set.Reaches context program.points { machine with exec := .program program :: rest }
      (program.leaves.foldl (set.applyLeaf context) { machine with exec := rest }) := by
  rw [foldl_applyLeaf context plain]
  exact (performs_of_plain frameless plain).program frameless machine rest

end InstructionSet

namespace Interpreter

/-- Without frames, a program with plain leaves takes a step for every point, and any smaller budget
to the full. It leaves what follows it to be executed, and all else as its leaves make it one after
the other; so programs with the same leaves have the same effect. -/
theorem nesting_flattens (interpreter : Interpreter ρ)
    (frameless : interpreter.config.frameMode = false) (program : Program)
    (plain : ∀ leaf ∈ program.leaves, interpreter.instructions.IsPlain interpreter.config leaf)
    (rest : Stack Atom) (pending : interpreter.machine.exec = .program program :: rest) :
    let apply := interpreter.instructions.applyLeaf interpreter.context
    let final := program.leaves.foldl apply { interpreter.machine with exec := rest }
    final.exec = rest ∧ interpreter.Reaches program.points final ∧
      (∀ budget ≤ program.points, (interpreter.step budget).1 = .ok budget) ∧
      ∀ other : Program, other.leaves = program.leaves →
        { interpreter with
          machine := { interpreter.machine with exec := .program other :: rest } }.Reaches
            other.points final := by
  intro apply final
  have reaches (other : Program) (leaves : other.leaves = program.leaves) :
      interpreter.instructions.Reaches interpreter.context other.points
        { interpreter.machine with exec := .program other :: rest } final := by
    have reached := InstructionSet.reaches_foldl_applyLeaf interpreter.context frameless
      (leaves ▸ plain) interpreter.machine rest
    rwa [leaves] at reached
  have started :
      { interpreter.machine with exec := .program program :: rest } = interpreter.machine := by
    rw [← pending]
  have reached := reaches program rfl
  rw [started] at reached
  refine ⟨?_, interpreter.reaches_of_machine reached, fun budget within => ?_, fun other leaves =>
    interpreter.reaches_of_machine (reaches other leaves)⟩
  · simp only [final, apply, InstructionSet.foldl_applyLeaf interpreter.context plain]
    rfl
  · obtain ⟨further, total⟩ := Nat.exists_eq_add_of_le within
    obtain ⟨middle, start, -⟩ := InstructionSet.Reaches.split (total ▸ reached)
    exact congrArg Prod.fst (interpreter.reaches_of_machine start)

/-- A sum of two nested integers around a name that stands for itself, and the same without the
nesting. -/
theorem nesting_flattens_sum :
    let program : Program := [.integer 1, .program [.name "x", .program [.name "integer.+"]]]
    let machine : Machine Script :=
      { exec := [.program program, .name "left"], data := { integer := [7] }, random := {} }
    let instructions : InstructionSet Script :=
      InstructionSet.literals.define "integer.+" (.builtin (.integer .add))
    let interpreter : Interpreter Script := { instructions, machine }
    let final : Machine Script :=
      { exec := [.name "left"], data := { integer := [8], name := ["x"] }, random := {} }
    interpreter.config.frameMode = false ∧
      interpreter.machine.exec = .program program :: [.name "left"] ∧
      interpreter.Reaches 6 final ∧ (interpreter.step 4).1 = .ok 4 ∧
      { interpreter with machine := { machine with
        exec := [.program [.integer 1, .name "x", .name "integer.+"], .name "left"] } }.Reaches
          4 final := by
  intro program machine instructions interpreter final
  have unknown : instructions.get? "x" = none := by
    rw [InstructionSet.get?_define, if_neg (by decide)]
    simp [InstructionSet.get?, InstructionSet.literals]
  have sum : instructions.get? "integer.+" = some (.builtin (.integer .add)) := by
    simp [instructions, InstructionSet.get?_define]
  have leaves : program.leaves = [.integer 1, .name "x", .name "integer.+"] := by
    simp [program, Program.leaves, Atom.preorder, Program.preorder, Atom.isProgram]
  have plain : ∀ leaf ∈ program.leaves, instructions.IsPlain {} leaf := by
    simp [leaves, InstructionSet.IsPlain, unknown, sum, Instruction.isPlain, Builtin.isPlain]
  have applied : program.leaves.foldl (instructions.applyLeaf {})
      { machine with exec := [.name "left"] } = final := by
    simp only [leaves, List.foldl_cons, List.foldl_nil, InstructionSet.applyLeaf, unknown, sum]
    rfl
  have flattened := interpreter.nesting_flattens rfl program plain [.name "left"] rfl
  obtain ⟨-, reached, budgets, others⟩ := flattened
  rw [show program.leaves.foldl (interpreter.instructions.applyLeaf interpreter.context) _ =
    final from applied]
    at reached others
  refine ⟨rfl, rfl, reached, budgets 4 (by decide), others _ ?_⟩
  rw [leaves]
  simp [Program.leaves, Atom.preorder, Atom.isProgram]

end Interpreter

end PushLang
