import PushLang.Proofs.Interpreter.Closings
import PushLang.Proofs.Interpreter.Run
import PushLang.Proofs.Safety.Execution

namespace PushLang

variable {ρ : Type}

namespace InstructionSet

variable {set : InstructionSet ρ}

/-- Every instruction is a built-in one under its own name. -/
def NamesBuiltins (set : InstructionSet ρ) : Prop :=
  ∀ name, ∀ instruction ∈ set.get? name, ∃ which : Builtin, name = which.name ∧
    instruction = .builtin which

theorem NamesBuiltins.define {set : InstructionSet ρ} (named : set.NamesBuiltins)
    (which : Builtin) :
    (set.define which.name (.builtin which)).NamesBuiltins := by
  intro name instruction found
  rw [get?_define] at found
  split at found
  · rename_i same
    exact ⟨which, same.symm, (Option.some.inj found).symm⟩
  · exact named name instruction found

/-- A set holds the built-in instructions, each under its name, and no others. -/
structure HasOnlyBuiltins (set : InstructionSet ρ) : Prop where
  all : set.HasBuiltins
  named : set.NamesBuiltins

theorem HasOnlyBuiltins.isStandard (builtins : set.HasOnlyBuiltins) : set.IsStandard := by
  intro name instruction found
  obtain ⟨which, -, rfl⟩ := builtins.named name instruction found
  rfl

theorem hasOnlyBuiltins_standard : (standard : InstructionSet ρ).HasOnlyBuiltins where
  all := hasBuiltins_standard
  named := standard_keeps (fun name instruction found => by simp [get?, literals] at found)
    fun _ which held => held.define which

/-- A leaf goes onto a stack, or it is the name of a built-in instruction to run. -/
theorem HasOnlyBuiltins.execute_cases [RandomSource ρ] (builtins : set.HasOnlyBuiltins)
    (context : Context) {leaf : Atom} (isLeaf : leaf.isProgram = false) :
    (set.execute context leaf = modify fun machine => machine.push leaf) ∨
      ∃ which : Builtin, leaf = .name which.name ∧
        set.execute context leaf = which.run ⟨context, set.eligible⟩ := by
  cases leaf with
  | program body => cases isLeaf
  | integer value | float value | boolean value => exact .inl rfl
  | name text =>
    cases found : set.get? text with
    | none => exact .inl (by simp only [execute, found])
    | some instruction =>
      obtain ⟨which, rfl, rfl⟩ := builtins.named text instruction found
      exact .inr ⟨which, rfl, execute_builtin builtins.all which⟩

theorem HasBuiltins.reaches [RandomSource ρ] (builtins : set.HasBuiltins) {context : Context}
    (which : Builtin) {before after : Machine ρ} {rest : Stack Atom}
    (pending : before.exec = .name which.name :: rest)
    (ran : which.run ⟨context, set.eligible⟩ { before with exec := rest } = .ok () after) :
    set.Reaches context 1 before after :=
  .one pending ((congrFun (execute_builtin builtins which) _).trans ran)

end InstructionSet

namespace Machine

variable {pending kept : Atom → Prop}

/-- The properties hold of the atoms still to be executed and of all code, that of callers included,
and there are no inputs. -/
structure Guarded (pending kept : Atom → Prop) (machine : Machine ρ) :
    Prop extends machine.Holds pending kept where
  callers : ∀ data ∈ machine.saved, ∀ atom ∈ data.code, kept atom
  input : machine.input = []

namespace Guarded

variable {machine : Machine ρ} (guarded : machine.Guarded pending kept)

include guarded

theorem withExec {items : Stack Atom} (items_hold : ∀ atom ∈ items, pending atom) :
    { machine with exec := items }.Guarded pending kept :=
      ⟨⟨items_hold, guarded.code⟩, guarded.callers, guarded.input⟩

theorem of_follows {after : Machine ρ} (follows : machine.Follows pending kept after) :
    after.Guarded pending kept :=
  ⟨follows.holds, follows.saved ▸ guarded.callers, follows.input.trans guarded.input⟩

theorem push (leaf : Atom) (isLeaf : leaf.isProgram = false) :
    (machine.push leaf).Guarded pending kept := by
  cases leaf with
  | program body => cases isLeaf
  | integer _ | float _ | boolean _ | name _ =>
    exact ⟨⟨guarded.exec, guarded.code⟩, guarded.callers, guarded.input⟩

theorem openFrame : machine.openFrame.Guarded pending kept := by
  refine ⟨⟨guarded.exec, fun atom member => ?_⟩,
    List.forall_mem_cons.mpr ⟨guarded.code, guarded.callers⟩, guarded.input⟩
  have top : atom ∈ machine.data.code.head?.toList := by
    simpa [Machine.openFrame, Stacks.seed, Stacks.tops, Stack.top?] using member
  exact guarded.code atom (List.mem_of_mem_head? (Option.mem_toList.mp top))

theorem closeFrame : machine.closeFrame.Guarded pending kept := by
  unfold Machine.closeFrame
  split
  · exact guarded
  · rename_i caller rest callers
    obtain ⟨own, others⟩ := List.forall_mem_cons.mp (callers ▸ guarded.callers)
    refine ⟨⟨guarded.exec, fun atom member => ?_⟩, others, guarded.input⟩
    rcases List.mem_append.mp member with top | below
    · exact guarded.code atom (List.mem_of_mem_head? (Option.mem_toList.mp top))
    · exact own atom below

end Guarded

theorem saved_closeFrame (machine : Machine ρ) : machine.closeFrame.saved = machine.saved.tail := by
  unfold closeFrame
  split <;> simp [*]

end Machine

namespace InstructionSet

/-- Programs have frames, only built-in instructions run, and there is nothing to draw random code
from. -/
structure RunsFramed (set : InstructionSet ρ) (config : Config) : Prop where
  frames : config.frameMode = true
  builtins : set.HasOnlyBuiltins
  noGenerators : set.eligible = []

theorem runsFramed_standard {config : Config} (frames : config.frameMode = true) :
    (standard : InstructionSet ρ).RunsFramed config :=
  ⟨frames, hasOnlyBuiltins_standard,
    @standard_keeps ρ (fun set => set.eligible = []) rfl fun _ _ held => held⟩

namespace RunsFramed

variable [RandomSource ρ] {set : InstructionSet ρ} {context : Context}
  (framed : set.RunsFramed context)

include framed

theorem execute_program (body : Program) (machine : Machine ρ) :
    set.execute context (.program body) machine =
      .ok () { machine with exec := .name FrameOp.push.name :: (body ++ .name FrameOp.pop.name ::
        machine.exec) } := by
  have unfolded : unfold context body ++ machine.exec =
      .name FrameOp.push.name :: (body ++ .name FrameOp.pop.name :: machine.exec) := by
        simp [unfold, framed.frames]
  rw [← unfolded]
  rfl

theorem execute_frame (op : FrameOp) (machine : Machine ρ) :
    set.execute context (.name op.name) machine = .ok () (match op with
      | .push => machine.openFrame
      | .pop => machine.closeFrame) := by
  rw [show op.name = (Builtin.frame op).name from rfl, execute_builtin framed.builtins.all]
  cases op <;> exact congrArg (EStateM.Result.ok ()) (if_pos framed.frames)

theorem reaches_program {machine : Machine ρ} {body : Program} {rest : Stack Atom}
    (pending : machine.exec = .program body :: rest) :
    set.Reaches context 2 machine { machine with
      exec := body ++ Atom.name FrameOp.pop.name :: rest }.openFrame :=
  .trans (.one pending (framed.execute_program body _)) (.one rfl (framed.execute_frame .push _))

/-- A leaf that opens no frame closes one where it is a marker, and no other leaf changes the open
frames. The next atom is quoted only where the leaf says so. -/
theorem cases_leaf {pending kept : Atom → Prop} (stable : Stable pending kept)
    {machine after : Machine ρ} (guarded : machine.Guarded pending kept) {leaf : Atom}
    (isLeaf : leaf.isProgram = false) (opensNone : leaf ≠ .name FrameOp.push.name)
    (quoted : leaf = .name Builtin.quote.name → ∀ next ∈ machine.exec.head?, kept next)
    (executed : set.execute context leaf machine = .ok () after) :
    after.Guarded pending kept ∧
      (leaf = .name FrameOp.pop.name ∧ after = machine.closeFrame ∨
        leaf ≠ .name FrameOp.pop.name ∧ after.saved = machine.saved) := by
  by_cases closes : leaf = .name FrameOp.pop.name
  · rw [closes, framed.execute_frame .pop] at executed
    cases executed
    exact ⟨guarded.closeFrame, .inl ⟨closes, rfl⟩⟩
  · rcases framed.builtins.execute_cases context isLeaf with pushed | ⟨which, rfl, ran⟩
    · rw [pushed] at executed
      cases executed
      exact ⟨guarded.push leaf isLeaf, .inr ⟨closes, rfl⟩⟩
    · rw [ran, framed.noGenerators] at executed
      have frameless (op : FrameOp) : which ≠ .frame op := by
        rintro rfl
        cases op with
        | push => exact opensNone rfl
        | pop => exact closes rfl
      have quotes : which = .quote → ∀ next ∈ machine.exec.head?, kept next := fun same =>
        quoted (by rw [same])
      obtain ⟨result, done, follows⟩ :=
        Builtin.run_follows stable guarded.toHolds guarded.input frameless quotes context
      cases done.symm.trans executed
      exact ⟨guarded.of_follows follows, .inr ⟨closes, follows.saved⟩⟩

theorem closings_leaf {machine after : Machine ρ} {leaf : Atom} (isLeaf : leaf.isProgram = false)
    (keeps : ∀ which ∈ Builtin.discarding, leaf ≠ .name which.name)
    (executed : set.execute context leaf machine = .ok () after) :
    Program.closings machine.exec ≤ Program.closings after.exec := by
  rcases framed.builtins.execute_cases context isLeaf with pushed | ⟨which, rfl, ran⟩
  · rw [pushed] at executed
    cases executed
    exact Nat.le_refl _
  · rw [ran, framed.noGenerators] at executed
    exact Builtin.closings_run (fun discards => keeps which discards rfl) context executed

end RunsFramed

end InstructionSet

end PushLang
