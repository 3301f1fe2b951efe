import PushLang.Proofs.Interpreter.Sequence
import PushLang.Random.Script

/-! Programs in frames. A frame opens on fresh stacks with the caller's top values, and closing it
hands single values back, so that nothing else passes between a nested program and the stacks around
it. -/

namespace PushLang

variable {ρ : Type}

/-- An update made in a frame of its own. -/
def Update.framed (update : Update ρ) : Update ρ := fun input (data, random) =>
  let inside := update input (Stacks.seed {} data.tops, random)
  (data.seed inside.1.tops, inside.2)

namespace InstructionSet

variable [RandomSource ρ] {set : InstructionSet ρ} {context : Context}

/-- With frames a program takes three steps of its own: it is replaced by its atoms, and a frame
opens and closes. -/
theorem Performs.framed (frames : context.frameMode = true) (builtins : set.HasBuiltins)
    {body : Program} {steps : Nat} {update : Update ρ}
    (inner : set.Performs context body steps update) :
    set.Performs context [.program body] (steps + 3) update.framed := by
  intro machine rest
  have execute_frame (op : FrameOp) :
      set.execute context (.name op.name) = modify fun machine => machine.changeFrame context op :=
    execute_builtin builtins (.frame op)
  let close : Atom := .name FrameOp.pop.name
  let frame : Machine ρ := machine.openFrame
  let finished : Machine ρ := { frame with exec := close :: rest }.apply update
  have replaced : set.Reaches context 1 { machine with exec := [.program body] ++ rest }
      { machine with exec := .name FrameOp.push.name :: (body ++ close :: rest) } := by
    refine .one rfl ?_
    simp only [execute, unfold, frames, if_true, List.cons_append, List.append_assoc,
      List.nil_append]
    rfl
  have entered : set.Reaches context 1
    { machine with exec := .name FrameOp.push.name :: (body ++ close :: rest) }
      { frame with exec := body ++ close :: rest } := by
    refine .one rfl ?_
    rw [execute_frame]
    refine congrArg (EStateM.Result.ok ()) ?_
    simp only [Machine.changeFrame, frames, if_true]
    rfl
  have ran : set.Reaches context steps { frame with exec := body ++ close :: rest } finished :=
    inner frame (close :: rest)
  have left : set.Reaches context 1 finished
      ({ machine with exec := rest }.apply update.framed) := by
    refine .one rfl ?_
    rw [execute_frame]
    refine congrArg (EStateM.Result.ok ()) ?_
    simp only [Machine.changeFrame, frames, if_true]
    rfl
  have total := ((replaced.trans entered).trans ran).trans left
  rwa [show 1 + 1 + steps + 1 = steps + 3 by omega] at total

/-- With frames, atoms with plain leaves make an update in a step for every point and two more for
every frame, and one and the same whatever was counted before. -/
theorem performs_of_plain_framed {config : Config} (frames : config.frameMode = true)
    (builtins : set.HasBuiltins) {atoms : Program}
    (plain : ∀ leaf ∈ atoms.leaves, set.IsPlain config leaf) :
    ∃ update, ∀ counts,
      set.Performs ⟨config, counts⟩ atoms (atoms.size + 2 * atoms.nestedPoints) update := by
  induction atoms using Program.induction with
  | nil => exact ⟨.skip, fun _ => .nil⟩
  | leaf atom rest isLeaf ih =>
    obtain ⟨first, later⟩ := (Program.forall_leaves_leaf isLeaf rest).mp plain
    obtain ⟨update, performed⟩ := ih later
    refine ⟨(Action.update (set.execute ⟨config, {}⟩ atom)).andThen update, fun counts => ?_⟩
    have own : set.Performs ⟨config, counts⟩ [atom] 1
        (Action.update (set.execute ⟨config, {}⟩ atom)) := by
      rw [← execute_counts first counts]
      exact .leaf first
    have both := own.append (performed counts)
    rw [Program.size, Atom.points_leaf isLeaf, Program.nestedPoints_leaf isLeaf, Nat.add_assoc]
    exact both
  | nested body rest bodyIh ih =>
    obtain ⟨inside, later⟩ := (Program.forall_leaves_nested body rest).mp plain
    obtain ⟨update, performed⟩ := bodyIh inside
    obtain ⟨after, finished⟩ := ih later
    refine ⟨update.framed.andThen after, fun counts => ?_⟩
    have both := ((performed counts).framed frames builtins).append (finished counts)
    have steps :
      Program.size (.program body :: rest) + 2 * Program.nestedPoints (.program body :: rest) =
        body.size + 2 * body.nestedPoints + 3 +
          (Program.size rest + 2 * Program.nestedPoints rest) := by
      simp only [Program.size, Atom.points, Program.nestedPoints_nested]
      omega
    rw [steps]
    exact both

end InstructionSet

namespace Interpreter

variable [RandomSource ρ]

/-- With frames, a program with plain leaves takes a step for every point and two for every frame.
It leaves exactly one number of either kind and one truth value, and at most one name and one piece
of code, on top of the caller's stacks. Under one configuration and instruction set these depend on
nothing but the caller's top values, the inputs and the random source. -/
theorem frames_isolate (config : Config) (frames : config.frameMode = true) (set : InstructionSet ρ)
    (builtins : set.HasBuiltins) (program : Program)
    (plain : ∀ leaf ∈ program.leaves, set.IsPlain config leaf) :
    ∃ outcome : Stacks.Tops → Stack Atom → ρ → Stacks.Tops × ρ,
      ∀ (interpreter : Interpreter ρ) (rest : Stack Atom),
        interpreter.config = config → interpreter.instructions = set →
        interpreter.machine.exec = .program program :: rest →
        let caller := interpreter.machine.data
        let (pushed, random) :=
          outcome caller.tops interpreter.machine.input interpreter.machine.random
        interpreter.Reaches (program.points + 2 * (program.nestedPoints + 1))
          { interpreter.machine with
            exec := rest
            data := {
              integer := pushed.integer :: caller.integer
              float := pushed.float :: caller.float
              boolean := pushed.boolean :: caller.boolean
              name := pushed.name.toList ++ caller.name
              code := pushed.code.toList ++ caller.code }
            random } := by
  obtain ⟨update, performed⟩ := InstructionSet.performs_of_plain_framed frames builtins plain
  refine ⟨fun tops input random =>
    let inside := update input (Stacks.seed {} tops, random)
    (inside.1.tops, inside.2), ?_⟩
  intro interpreter rest sameConfig sameSet pending
  subst sameConfig sameSet
  have start :
      { interpreter.machine with exec := [.program program] ++ rest } = interpreter.machine := by
    rw [List.singleton_append, ← pending]
  have reached := (performed interpreter.counts).framed frames builtins interpreter.machine rest
  have steps : program.size + 2 * program.nestedPoints + 3 =
      program.points + 2 * (program.nestedPoints + 1) := by
    simp only [Program.points]
    omega
  rw [start, steps] at reached
  exact interpreter.reaches_of_machine reached

/-- A program that empties its integer stack leaves the caller's alone. -/
theorem frames_isolate_flush :
    let config : Config := { frameMode := true }
    let program : Program := [.name "integer.flush", .program [.integer 3, .name "integer.dup"]]
    let machine : Machine Script := {
      exec := [.program program, .name "left"]
      data := { integer := [7, 8], name := ["kept"], code := [.boolean true] }
      random := {} }
    let interpreter : Interpreter Script := { Interpreter.new config {} with machine }
    config.frameMode = true ∧ interpreter.machine.exec = .program program :: [.name "left"] ∧
      ∃ (pushed : Stacks.Tops) (random : Script),
        interpreter.Reaches 9
          { machine with
            exec := [.name "left"]
            data := {
              integer := [pushed.integer, 7, 8]
              float := [pushed.float]
              boolean := [pushed.boolean]
              name := pushed.name.toList ++ ["kept"]
              code := pushed.code.toList ++ [.boolean true] }
            random } := by
  intro config program machine interpreter
  have builtins : interpreter.instructions.HasBuiltins := InstructionSet.hasBuiltins_standard
  have plain : ∀ leaf ∈ program.leaves, interpreter.instructions.IsPlain config leaf := by
    refine (Program.forall_leaves_leaf rfl _).mpr ⟨builtins.isPlain (.move .integer .flush) rfl, ?_⟩
    refine (Program.forall_leaves_nested _ []).mpr
      ⟨(Program.forall_leaves_leaf rfl _).mpr ⟨trivial, ?_⟩, by simp⟩
    exact (Program.forall_leaves_leaf rfl []).mpr
      ⟨builtins.isPlain (.move .integer .dup) rfl, by simp⟩
  obtain ⟨outcome, isolated⟩ :=
    frames_isolate config rfl interpreter.instructions builtins program plain
  have reached := isolated interpreter [.name "left"] rfl rfl rfl
  exact ⟨rfl, rfl, _, _, reached⟩

end Interpreter

end PushLang
