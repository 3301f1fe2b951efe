import PushLang.Proofs.Interpreter.Plain
import PushLang.Proofs.Interpreter.Run
import PushLang.Proofs.Program.Preorder

namespace PushLang

variable {ρ : Type}

/-- The machine with some atoms in front of what is still to be executed. -/
def Machine.scheduleAll (machine : Machine ρ) (atoms : List Atom) : Machine ρ :=
  { machine with exec := atoms ++ machine.exec }

namespace Update

def skip : Update ρ := fun _ state => state

def andThen (first second : Update ρ) :
    Update ρ := fun input state => second input (first input state)

end Update

namespace InstructionSet

theorem isPlain_replicate {set : InstructionSet ρ} {config : Config} {body : Atom} (count : Nat)
    (plain : ∀ leaf ∈ Program.leaves [body], set.IsPlain config leaf) :
    ∀ leaf ∈ Program.leaves (List.replicate count body), set.IsPlain config leaf := by
  refine (Program.forall_leaves_iff _).mpr fun atom member => ?_
  rwa [List.eq_of_mem_replicate member]

variable [RandomSource ρ] (set : InstructionSet ρ) (context : Context)

/-- What leaves do one after the other. -/
def updates : List Atom → Update ρ
  | [] => .skip
  | leaf :: rest => (Action.update (set.execute context leaf)).andThen (updates rest)

theorem updates_append (front back : List Atom) :
    set.updates context (front ++ back) =
      (set.updates context front).andThen (set.updates context back) := by
  induction front with
  | nil => rfl
  | cons leaf front ih =>
    simp only [List.cons_append, updates, ih]
    rfl

/-- Some atoms take a number of steps and make an update, whatever follows them. -/
def Performs (atoms : List Atom) (steps : Nat) (update : Update ρ) : Prop :=
  ∀ (machine : Machine ρ) (rest : Stack Atom),
    set.Reaches context steps { machine with exec := atoms ++ rest }
    ({ machine with exec := rest }.apply update)

variable {set context}

namespace Performs

theorem nil : set.Performs context [] 0 .skip := fun _ _ => .refl _

theorem append {front back : List Atom} {first second : Nat} {start finish : Update ρ}
    (before : set.Performs context front first start)
    (after : set.Performs context back second finish) :
    set.Performs context (front ++ back) (first + second) (start.andThen finish) := by
  intro machine rest
  rw [List.append_assoc]
  let middle : Machine ρ := { machine with exec := back ++ rest }.apply start
  have started :
      set.Reaches context first { machine with exec := front ++ (back ++ rest) } middle :=
    before machine (back ++ rest)
  exact started.trans (after middle rest)

theorem leaf {atom : Atom} (plain : set.IsPlain context atom) :
    set.Performs context [atom] 1 (Action.update (set.execute context atom)) := by
  intro machine rest
  exact .one rfl (execute_isPlain plain { machine with exec := rest })

theorem program (frameless : context.frameMode = false) {body : Program} {steps : Nat}
    {update : Update ρ} (inner : set.Performs context body steps update) :
    set.Performs context [.program body] (steps + 1) update := by
  intro machine rest
  have opened : set.Reaches context 1 { machine with exec := [.program body] ++ rest }
      { machine with exec := body ++ rest } := by
    refine .one rfl ?_
    simp only [execute, unfold, frameless]
    rfl
  rw [Nat.add_comm]
  exact opened.trans (inner machine rest)

end Performs

/-- Without frames, programs of plain leaves do what their leaves do from left to right, in a step
for every point. -/
theorem performs_of_plain (frameless : context.frameMode = false) {atoms : Program}
    (plain : ∀ leaf ∈ atoms.leaves, set.IsPlain context leaf) :
    set.Performs context atoms atoms.size (set.updates context atoms.leaves) := by
  induction atoms using Program.induction with
  | nil => exact .nil
  | leaf atom rest isLeaf ih =>
    obtain ⟨first, later⟩ := (Program.forall_leaves_leaf isLeaf rest).mp plain
    have both := (Performs.leaf first).append (ih later)
    rw [Program.leaves_leaf isLeaf, Program.size, Atom.points_leaf isLeaf]
    exact both
  | nested body rest bodyIh ih =>
    obtain ⟨inside, later⟩ := (Program.forall_leaves_nested body rest).mp plain
    have both := ((bodyIh inside).program frameless).append (ih later)
    rw [Program.leaves_nested, updates_append, Program.size, Atom.points]
    exact both

end InstructionSet

namespace Interpreter

variable [RandomSource ρ]

/-- From two machines an interpreter gets to one and the same machine, with a given rest still to be
executed. -/
def Agree (interpreter : Interpreter ρ) (rest : Stack Atom) (first second : Machine ρ) : Prop :=
  ∃ final firstSteps secondSteps, final.exec = rest ∧
    { interpreter with machine := first }.Reaches firstSteps final ∧
    { interpreter with machine := second }.Reaches secondSteps final

theorem performs_of_plain {interpreter : Interpreter ρ}
    (frameless : interpreter.config.frameMode = false) {atoms : Program}
    (plain : ∀ leaf ∈ atoms.leaves, interpreter.instructions.IsPlain interpreter.config leaf) :
    interpreter.instructions.Performs interpreter.context atoms atoms.size
      (interpreter.instructions.updates interpreter.context atoms.leaves) :=
  InstructionSet.performs_of_plain frameless plain

theorem agree_of_reaches {interpreter : Interpreter ρ}
    (frameless : interpreter.config.frameMode = false)
    {first : Machine ρ} {atoms : Program}
    (plain : ∀ leaf ∈ atoms.leaves, interpreter.instructions.IsPlain interpreter.config leaf)
    (reached : ∃ steps, interpreter.instructions.Reaches interpreter.context steps first
      (interpreter.machine.apply (interpreter.instructions.updates interpreter.context
        atoms.leaves))) :
    interpreter.Agree interpreter.machine.exec first (interpreter.machine.scheduleAll atoms) := by
  obtain ⟨steps, reached⟩ := reached
  have performed := performs_of_plain frameless plain
  refine ⟨interpreter.machine.apply (interpreter.instructions.updates interpreter.context
    atoms.leaves), steps, atoms.size, rfl, ?_, ?_⟩
  · exact interpreter.reaches_of_machine reached
  · exact interpreter.reaches_of_machine (performed interpreter.machine interpreter.machine.exec)

end Interpreter

end PushLang
