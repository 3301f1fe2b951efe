import PushLang.Proofs.Interpreter.Sequence
import PushLang.Random.Script

namespace PushLang

variable {ρ : Type}

/-- The machine with `y` and its operand in front of what is still to be executed. -/
def Machine.repeating (machine : Machine ρ) (body : Atom) : Machine ρ :=
  machine.scheduleAll [.name "exec.y", body]

variable [RandomSource ρ]

namespace InstructionSet

variable {set : InstructionSet ρ} {context : Context} {body : Atom}

/-- In a round `y` puts a program of itself and its operand behind the operand, the operand is
executed, and the program is replaced by its atoms. -/
theorem reaches_round (builtins : set.HasBuiltins) (frameless : context.frameMode = false)
    (plain : ∀ leaf ∈ Program.leaves [body], set.IsPlain context leaf) (machine : Machine ρ) :
    set.Reaches context (body.points + 2) (machine.repeating body)
      ((machine.apply (set.updates context (Program.leaves [body]))).repeating body) := by
  let again : Atom := .program [.name "exec.y", body]
  let after : Machine ρ := machine.apply (set.updates context (Program.leaves [body]))
  have rebuilt :
      set.Reaches context 1 (machine.repeating body) (machine.scheduleAll [body, again]) :=
    .one rfl (congrFun (execute_builtin builtins (.combinator .y)) (machine.scheduleAll [body]))
  have performed : set.Reaches context (Program.size [body]) (machine.scheduleAll [body, again])
      (after.scheduleAll [again]) :=
    performs_of_plain frameless plain machine (again :: machine.exec)
  have replaced : set.Reaches context 1 (after.scheduleAll [again]) (after.repeating body) := by
    refine .one rfl ?_
    simp only [execute, unfold, frameless]
    rfl
  have round := (rebuilt.trans performed).trans replaced
  rwa [show 1 + Program.size [body] + 1 = body.points + 2 by simp only [Program.size]; omega]
    at round

theorem reaches_rounds (builtins : set.HasBuiltins) (frameless : context.frameMode = false)
    (plain : ∀ leaf ∈ Program.leaves [body], set.IsPlain context leaf) (rounds : Nat)
    (machine : Machine ρ) :
    set.Reaches context (rounds * (body.points + 2)) (machine.repeating body)
      ((machine.apply (set.updates context (Program.leaves (List.replicate rounds body)))).repeating
        body) := by
  induction rounds generalizing machine with
  | zero =>
    rw [Nat.zero_mul]
    exact .refl _
  | succ rounds ih =>
    let after : Machine ρ := machine.apply (set.updates context (Program.leaves [body]))
    have total : machine.apply (set.updates context
      (Program.leaves (List.replicate (rounds + 1) body))) =
        after.apply (set.updates context (Program.leaves (List.replicate rounds body))) := by
      rw [Program.leaves_replicate_succ, updates_append]
      rfl
    rw [total, Nat.succ_mul, Nat.add_comm]
    exact (reaches_round builtins frameless plain machine).trans (ih after)

end InstructionSet

namespace Interpreter

/-- Without frames, and with a plain operand, `y` spends whatever budget there is. After any number
of rounds, each of two steps more than the operand has points, it is next again, and all else is as
if its operand had been executed that often. -/
theorem y_repeats (interpreter : Interpreter ρ) (frameless : interpreter.config.frameMode = false)
    (builtins : interpreter.instructions.HasBuiltins) (body : Atom)
    (plain : ∀ leaf ∈ Program.leaves [body],
      interpreter.instructions.IsPlain interpreter.config leaf) :
    let machine := interpreter.machine
    let repeating : Interpreter ρ := { interpreter with machine := machine.repeating body }
    (∀ budget, (repeating.step budget).1 = .ok budget) ∧
    ∀ rounds, ∃ after : Machine ρ, after.exec = machine.exec ∧
      { interpreter with machine := machine.scheduleAll (List.replicate rounds body) }.Reaches
        (rounds * body.points) after ∧
      repeating.Reaches (rounds * (body.points + 2)) (after.repeating body) := by
  intro machine repeating
  have goesOn (rounds : Nat) :
    interpreter.instructions.Reaches interpreter.context (rounds * (body.points + 2))
      (machine.repeating body)
      ((machine.apply (interpreter.instructions.updates interpreter.context
        (Program.leaves (List.replicate rounds body)))).repeating body) :=
    InstructionSet.reaches_rounds builtins frameless plain rounds machine
  refine ⟨fun budget => ?_, fun rounds => ?_⟩
  · -- So many rounds take at least so many steps, and what they pass through on the way is reached
    -- by exactly that many.
    obtain ⟨more, longer⟩ : ∃ more, budget * (body.points + 2) = budget + more :=
      Nat.exists_eq_add_of_le (Nat.le_mul_of_pos_right budget (by omega))
    obtain ⟨middle, spent, -⟩ := InstructionSet.Reaches.split (longer ▸ goesOn budget)
    exact congrArg Prod.fst (interpreter.reaches_of_machine spent)
  · let bodies : Program := List.replicate rounds body
    let after : Machine ρ :=
      machine.apply (interpreter.instructions.updates interpreter.context bodies.leaves)
    have performed : interpreter.instructions.Reaches interpreter.context bodies.size
        (machine.scheduleAll bodies) after :=
      performs_of_plain frameless (InstructionSet.isPlain_replicate rounds plain) machine
        machine.exec
    rw [Program.size_replicate] at performed
    exact ⟨after, rfl, interpreter.reaches_of_machine performed,
      interpreter.reaches_of_machine (goesOn rounds)⟩

/-- A budget that ends inside the third round, and three whole rounds. -/
theorem y_repeats_rounds :
    let machine : Machine Script :=
      { exec := [.name "left"], data := { integer := [7] }, random := {} }
    let interpreter : Interpreter Script := { Interpreter.new {} {} with machine }
    let body : Atom := .program [.integer 1, .name "integer.+"]
    let repeating : Interpreter Script :=
      { interpreter with machine := { machine with exec := [.name "exec.y", body, .name "left"] } }
    interpreter.config.frameMode = false ∧ (repeating.step 12).1 = .ok 12 ∧
      ∃ after : Machine Script, after.exec = [.name "left"] ∧
        { interpreter with
          machine := { machine with exec := [body, body, body, .name "left"] } }.Reaches 9 after ∧
        repeating.Reaches 15 { after with exec := [.name "exec.y", body, .name "left"] } := by
  intro machine interpreter body repeating
  have builtins : interpreter.instructions.HasBuiltins := InstructionSet.hasBuiltins_standard
  have plain :
      ∀ leaf ∈ Program.leaves [body], interpreter.instructions.IsPlain interpreter.config leaf := by
    refine (Program.forall_leaves_nested _ []).mpr
      ⟨(Program.forall_leaves_leaf rfl _).mpr ⟨trivial, ?_⟩, by simp⟩
    exact (Program.forall_leaves_leaf rfl []).mpr ⟨builtins.isPlain (.integer .add) rfl, by simp⟩
  have points : body.points = 3 := by simp [body, Atom.points, Program.size]
  obtain ⟨spends, rounds⟩ := interpreter.y_repeats rfl builtins body plain
  obtain ⟨after, rest, performed, returned⟩ := rounds 3
  rw [points] at performed returned
  have again : after.repeating body =
      { after with exec := [.name "exec.y", body, .name "left"] } := by
    rw [Machine.repeating, Machine.scheduleAll, rest]
    rfl
  rw [again] at returned
  exact ⟨rfl, spends 12, after, rest, performed, returned⟩

end Interpreter

end PushLang
