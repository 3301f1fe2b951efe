import PushLang.Proofs.Interpreter.Origins
import PushLang.Proofs.Interpreter.Plain
import PushLang.Proofs.Program.Preorder

/-! Frames that are still to be closed. Each program in a frame leaves the closing of its frame
behind its atoms, where it waits among the atoms still to be executed; most instructions may move it
or copy it, and a few may take it away. -/

namespace PushLang

/-- How many leaves of a program close frames. -/
def Program.closings (program : Program) : Nat := program.leaves.count (.name FrameOp.pop.name)

/-- How many leaves of an atom close frames. -/
def Atom.closings (atom : Atom) : Nat := Program.closings [atom]

namespace Program

@[simp] theorem closings_nil : closings [] = 0 := by simp [closings]

@[simp] theorem closings_cons (atom : Atom) (rest : List Atom) :
    closings (atom :: rest) = atom.closings + closings rest := by
  rw [← List.singleton_append, Atom.closings]
  simp only [closings, leaves_append, List.count_append]

@[simp] theorem closings_append (front back : List Atom) :
    closings (front ++ back) = closings front + closings back := by
  simp only [closings, leaves_append, List.count_append]

theorem closings_perm {front back : List Atom} (same : front.Perm back) :
    closings front = closings back := by
  induction same with
  | nil => rfl
  | cons atom _ ih => simp only [closings_cons, ih]
  | swap first second rest =>
    simp only [closings_cons]
    omega
  | trans _ _ start finish => exact start.trans finish

end Program

namespace Atom

@[simp] theorem closings_program (body : Program) :
    (Atom.program body).closings = body.closings := by
  simp [closings, Program.closings]

theorem closings_leaf {atom : Atom} (leaf : atom.isProgram = false) :
    atom.closings = if atom = .name FrameOp.pop.name then 1 else 0 := by
  simp [closings, Program.closings, Program.leaves_leaf leaf, List.count_singleton]

@[simp] theorem closings_integer (value : Int32) : (Atom.integer value).closings = 0 :=
  closings_leaf rfl

@[simp] theorem closings_name (text : String) :
    (Atom.name text).closings = if text = "frame.pop" then 1 else 0 := by
  rw [closings_leaf rfl]
  simp [FrameOp.name]

end Atom

namespace Machine

open Program (closings)

@[simp] theorem closings_continuation (stack : CodeStack) (next destination : Int32) (body : Atom) :
    (continuation stack next destination body).closings = body.closings := by
  cases stack <;> simp [continuation]

@[simp] theorem closings_withoutIndex (body : Atom) :
    (withoutIndex body).closings = body.closings := by
  simp [withoutIndex]

variable {ρ : Type} (machine : Machine ρ)

/-- The code stack chooses among atoms of its own. -/
theorem closings_choose_code : closings machine.exec ≤ closings (machine.choose .code).exec := by
  unfold choose
  split
  · simp [setCodeItems, schedule]
  · exact Nat.le_refl _

theorem closings_loopRange (stack : CodeStack) :
    closings machine.exec ≤ closings (machine.loopRange stack).exec := by
  unfold loopRange
  split
  · rename_i destination current integers body rest numbers items
    cases stack with
    | code =>
      cases stepTowards current destination <;>
        (simp only [setCodeItems, schedule, Program.closings_cons]; omega)
    | exec =>
      rw [show machine.exec = body :: rest from items]
      cases stepTowards current destination <;>
        (simp only [setCodeItems, schedule, Program.closings_cons]; omega)
  · exact Nat.le_refl _

theorem closings_loopCount (stack : CodeStack) {body : Atom → Atom}
    (same : ∀ atom, (body atom).closings = atom.closings) :
    closings machine.exec ≤ closings (machine.loopCount stack body).exec := by
  unfold loopCount
  split
  · rename_i count integers item rest numbers items
    split
    · cases stack with
      | code => simp [setCodeItems, schedule]
      | exec =>
        rw [show machine.exec = item :: rest from items]
        simp [setCodeItems, schedule, same]
    · exact Nat.le_refl _
  · exact Nat.le_refl _

theorem closings_loop (stack : CodeStack) (which : Loop) :
    closings machine.exec ≤ closings (machine.loop stack which).exec := by
  cases which with
  | range => exact machine.closings_loopRange stack
  | count => exact machine.closings_loopCount stack fun _ => rfl
  | times => exact machine.closings_loopCount stack closings_withoutIndex

/-- Of the combinators only `k` drops an atom. -/
theorem closings_combine (config : Config) {which : Combinator} (keeps : which ≠ .k) :
    closings machine.exec ≤ closings (machine.combine config which).exec := by
  cases which with
  | k => exact absurd rfl keeps
  | s =>
    simp only [combine]
    split
    · rename_i items
      split
      · exact Nat.le_refl _
      · simp only [items, Program.closings_cons, Atom.closings_program, Program.closings_nil]
        omega
    · exact Nat.le_refl _
  | y =>
    simp only [combine]
    split
    · rename_i items
      simp [items]
    · exact Nat.le_refl _

end Machine

theorem StackMove.closings_apply {op : StackMove} (keeps : op ≠ .pop ∧ op ≠ .flush)
    (stack : Stack Atom) :
    Program.closings stack ≤ Program.closings (op.apply stack) := by
  cases op with
  | pop => exact absurd rfl keeps.1
  | flush => exact absurd rfl keeps.2
  | swap => exact Nat.le_of_eq (Program.closings_perm stack.swap_perm.symm)
  | rot => exact Nat.le_of_eq (Program.closings_perm stack.rot_perm.symm)
  | dup => cases stack <;> simp [apply, Stack.dup]

theorem DepthMove.closings_apply (op : DepthMove) (depth : Nat) (stack : Stack Atom) :
    Program.closings stack ≤ Program.closings (op.apply depth stack) := by
  cases op with
  | shove => exact Nat.le_of_eq (Program.closings_perm (stack.shove_perm depth).symm)
  | yank => exact Nat.le_of_eq (Program.closings_perm (stack.yank_perm depth).symm)
  | yankDup =>
    simp only [apply, Stack.yankDup]
    split
    · simp
    · exact Nat.le_refl _

theorem Machine.closings_moveDeep {ρ : Type} (machine : Machine ρ) (kind : StackKind)
    (op : DepthMove) :
    Program.closings machine.exec ≤ Program.closings (machine.moveDeep kind op).exec := by
  unfold moveDeep
  split
  · exact Nat.le_refl _
  · split
    · exact Nat.le_refl _
    · cases kind with
      | exec => exact op.closings_apply _ machine.exec
      | integer | float | boolean | name | code => exact Nat.le_refl _

theorem Machine.exec_closeFrame {ρ : Type} (machine : Machine ρ) :
    machine.closeFrame.exec = machine.exec := by
  unfold closeFrame
  split <;> rfl

theorem Machine.exec_changeFrame {ρ : Type} (machine : Machine ρ) (config : Config) (op : FrameOp) :
    (machine.changeFrame config op).exec = machine.exec := by
  simp only [changeFrame]
  split
  · cases op with
    | push => rfl
    | pop => exact machine.exec_closeFrame
  · rfl

/-- A step takes no closing away from the atoms still to be executed, except one that it
executes. -/
def Machine.KeepsClosings {ρ : Type} (before after : Machine ρ) : Prop :=
  before.exec.head? ≠ some (.name FrameOp.pop.name) →
    Program.closings before.exec ≤ Program.closings after.exec

/-- The instructions that can take atoms away from those still to be executed without executing
them. -/
def Builtin.discarding : List Builtin :=
  [.move .exec .pop, .move .exec .flush, .combinator .k, .compareNext, .choose .exec, .quote]

open Program (closings) in
/-- No other built-in instruction makes the closings fewer. -/
theorem Builtin.closings_run {ρ : Type} [RandomSource ρ] {which : Builtin}
    (keeps : which ∉ discarding) (config : Config) {machine after : Machine ρ}
    (ran : (which.run ⟨config, []⟩ : Action ρ Unit) machine = .ok () after) :
    closings machine.exec ≤ closings after.exec := by
  have plainly (plain : which.isPlain config = true) :
      closings machine.exec ≤ closings after.exec := by
    have updated := Builtin.run_isPlain ⟨config, []⟩ plain machine
    rw [ran] at updated
    cases updated
    exact Nat.le_refl _
  cases which with
  | integer | float | boolean | code | constant | noop | input => exact plainly rfl
  | quote | compareNext => simp [discarding] at keeps
  | choose stack =>
    cases ran
    cases stack with
    | code => exact machine.closings_choose_code
    | exec => simp [discarding] at keeps
  | randomCode stack =>
    cases (Environment.pushRandomCode_of_none config stack machine).symm.trans ran
    exact Nat.le_refl _
  | loop stack which =>
    cases ran
    exact machine.closings_loop stack which
  | combinator which =>
    cases ran
    exact machine.closings_combine config fun dropping => keeps (by simp [discarding, dropping])
  | move kind op =>
    cases kind with
    | exec =>
      cases ran
      exact op.closings_apply (by constructor <;> rintro rfl <;> simp [discarding] at keeps)
        machine.exec
    | integer | float | boolean | name | code => exact plainly rfl
  | moveDeep kind op =>
    cases ran
    exact machine.closings_moveDeep kind op
  | depth kind =>
    cases ran
    exact Nat.le_refl _
  | frame op =>
    cases ran
    exact Nat.le_of_eq (congrArg closings (machine.exec_changeFrame config op).symm)

end PushLang
