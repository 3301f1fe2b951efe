import PushLang.Program.Limit
import PushLang.Proofs.Interpreter.Sequence
import PushLang.Random.Script

/-! Choices and combinators. One step puts other atoms in the place of an instruction and its
operands, and where their leaves are plain the instruction has the effect of those atoms one after
the other. -/

namespace PushLang

/-- The sum that `s` compares with the limit is the size of the program that it builds. -/
theorem Program.fits_pair {b c : Atom} {limit : Nat} :
    Program.fits [b, c] limit = true ↔ ¬ limit < b.points + c.points := by
  rw [Nat.not_lt, fits, decide_eq_true_iff]
  simp only [size, Nat.add_zero]

variable {ρ : Type}

namespace Machine

/-- The machine with the operands of a choice added: a truth value, and two atoms on the stack that
they are chosen from. -/
def withChoice (machine : Machine ρ) (stack : CodeStack) (condition : Bool)
    (whenTrue whenFalse : Atom) : Machine ρ :=
  let machine := { machine with
    data := { machine.data with boolean := condition :: machine.data.boolean } }
  machine.setCodeItems stack (whenTrue :: whenFalse :: machine.codeItems stack)

theorem choose_withChoice (machine : Machine ρ) (stack : CodeStack) (condition : Bool)
    (whenTrue whenFalse : Atom) :
    (machine.withChoice stack condition whenTrue whenFalse).choose stack =
      machine.scheduleAll [if condition then whenTrue else whenFalse] := by
  cases stack <;> rfl

theorem combine_k (config : Config) (machine : Machine ρ) (a b : Atom) :
    (machine.scheduleAll [a, b]).combine config .k = machine.scheduleAll [a] := rfl

theorem combine_s_of_fits {config : Config} {b c : Atom}
    (fits : Program.fits [b, c] config.maxPoints = true) (machine : Machine ρ) (a : Atom) :
    (machine.scheduleAll [a, b, c]).combine config .s =
      machine.scheduleAll [a, c, .program [b, c]] :=
  if_neg (Program.fits_pair.mp fits)

theorem combine_s_of_exceeds {config : Config} {b c : Atom}
    (exceeds : ¬ Program.fits [b, c] config.maxPoints = true) (machine : Machine ρ) (a : Atom) :
    (machine.scheduleAll [a, b, c]).combine config .s = machine.scheduleAll [a, b, c] :=
  if_pos (Classical.not_not.mp (mt Program.fits_pair.mpr exceeds))

/-- Whatever is next, the only atom that `s` adds to it is a program within the limit. -/
theorem fits_of_mem_combine_s {config : Config} {machine : Machine ρ} {atom : Atom}
    (member : atom ∈ (machine.combine config .s).exec) :
    atom ∈ machine.exec ∨ ∃ body : Program, atom = .program body ∧
      body.fits config.maxPoints = true := by
  simp only [combine] at member
  split at member
  · rename_i a b c rest pending
    split at member
    · exact .inl member
    · rename_i within
      rw [pending]
      simp only [List.mem_cons] at member ⊢
      rcases member with first | third | pair | later
      · exact .inl (.inl first)
      · exact .inl (.inr (.inr (.inl third)))
      · exact .inr ⟨[b, c], pair, Program.fits_pair.mpr within⟩
      · exact .inl (.inr (.inr (.inr later)))
  · exact .inl member

end Machine

variable [RandomSource ρ]

namespace Interpreter

/-- Where a built-in instruction puts atoms with plain leaves in front of what follows, it has the
effect of these, and of any other atoms with the same leaves. -/
theorem agree_of_builtin {interpreter : Interpreter ρ}
    (frameless : interpreter.config.frameMode = false)
    (builtins : interpreter.instructions.HasBuiltins) (builtin : Builtin) {before : Machine ρ}
    {atoms others : Program}
    (ran : builtin.run interpreter.environment before =
      .ok () (interpreter.machine.scheduleAll atoms))
    (leaves : others.leaves = atoms.leaves)
    (plain : ∀ leaf ∈ atoms.leaves, interpreter.instructions.IsPlain interpreter.config leaf) :
    interpreter.Agree interpreter.machine.exec (before.schedule (.name builtin.name))
      (interpreter.machine.scheduleAll others) := by
  have executed : interpreter.instructions.execute interpreter.context (.name builtin.name) before =
      .ok () (interpreter.machine.scheduleAll atoms) :=
    (congrFun (InstructionSet.execute_builtin builtins builtin) before).trans ran
  have started :
    interpreter.instructions.Reaches interpreter.context 1 (before.schedule (.name builtin.name))
      (interpreter.machine.scheduleAll atoms) := .one rfl executed
  have finished := performs_of_plain frameless plain interpreter.machine interpreter.machine.exec
  refine agree_of_reaches frameless (leaves ▸ plain) ⟨1 + atoms.size, ?_⟩
  rw [leaves]
  exact started.trans finished

/-- With plain leaves and without frames, `k` has the effect of its first operand. So has `s` of its
first and third and then the second applied to the third, if this application keeps to the limit,
and else of its operands as they are; of whatever is next, it makes no program over the limit. A
choice has the effect of the atom that its truth value selects. -/
theorem combinators_act (interpreter : Interpreter ρ)
    (frameless : interpreter.config.frameMode = false)
    (builtins : interpreter.instructions.HasBuiltins) (a b c : Atom)
    (plain : ∀ leaf ∈ Program.leaves [a, b, c],
      interpreter.instructions.IsPlain interpreter.config leaf) :
    let machine := interpreter.machine
    let limit := interpreter.config.maxPoints
    let sameEffect := interpreter.Agree machine.exec
    sameEffect (machine.scheduleAll [.name "exec.k", a, b]) (machine.scheduleAll [a]) ∧
    (Program.fits [b, c] limit = true →
      sameEffect (machine.scheduleAll [.name "exec.s", a, b, c])
        (machine.scheduleAll [a, c, .program [b, c]]) ∧
      sameEffect (machine.scheduleAll [.name "exec.s", a, b, c])
        (machine.scheduleAll [a, c, b, c])) ∧
    (¬ Program.fits [b, c] limit = true →
      sameEffect (machine.scheduleAll [.name "exec.s", a, b, c]) (machine.scheduleAll [a, b, c])) ∧
    (∀ rest : Stack Atom, ∃ after : Machine ρ,
      { interpreter with machine := { machine with exec := .name "exec.s" :: rest } }.Reaches 1
      after ∧
      ∀ atom ∈ after.exec, atom ∈ rest ∨ ∃ body : Program, atom = .program body ∧
        body.fits limit = true) ∧
    ∀ (stack : CodeStack) (condition : Bool),
      sameEffect ((machine.withChoice stack condition a b).scheduleAll
      [.name (stack.label ++ ".if")])
        (machine.scheduleAll [if condition then a else b]) := by
  intro machine limit sameEffect
  have among : ∀ atoms : Program, (∀ atom ∈ atoms, atom ∈ [a, b, c]) →
      ∀ leaf ∈ atoms.leaves, interpreter.instructions.IsPlain interpreter.config leaf :=
    fun atoms chosen => (Program.forall_leaves_iff atoms).mpr fun atom member =>
      (Program.forall_leaves_iff _).mp plain atom (chosen atom member)
  -- The pair that `s` builds is unfolded as it comes up, so that only the leaves in it count.
  have distributed : Program.leaves [a, c, b, c] = Program.leaves [a, c, .program [b, c]] :=
    (Program.leaves_append_nested [a, c] [b, c]).symm
  have distributes : ∀ others : Program, others.leaves = Program.leaves [a, c, .program [b, c]] →
      Program.fits [b, c] limit = true →
      sameEffect (machine.scheduleAll [.name "exec.s", a, b, c]) (machine.scheduleAll others) :=
    fun others leaves fits =>
      agree_of_builtin frameless builtins (.combinator .s)
        (congrArg (EStateM.Result.ok ()) (Machine.combine_s_of_fits fits machine a)) leaves
        (distributed ▸ among [a, c, b, c] (by simp))
  refine ⟨?_, fun fits => ⟨distributes _ rfl fits, distributes _ distributed fits⟩,
    fun exceeds => ?_, fun rest => ?_,
    fun stack condition => ?_⟩
  · exact agree_of_builtin frameless builtins (.combinator .k)
      (congrArg (EStateM.Result.ok ()) (machine.combine_k interpreter.config a b)) rfl
        (among [a] (by simp))
  · exact agree_of_builtin frameless builtins (.combinator .s)
      (congrArg (EStateM.Result.ok ()) (Machine.combine_s_of_exceeds exceeds machine a)) rfl plain
  · let before : Machine ρ := { machine with exec := rest }
    refine ⟨before.combine interpreter.config .s, ?_, fun atom => Machine.fits_of_mem_combine_s⟩
    exact interpreter.reaches_of_machine
      (.one rfl (congrFun (InstructionSet.execute_builtin builtins (.combinator .s)) before))
  · exact agree_of_builtin frameless builtins (.choose stack)
      (congrArg (EStateM.Result.ok ()) (machine.choose_withChoice stack condition a b)) rfl
      (among [if condition then a else b] (by cases condition <;> simp))

/-- A program of three points and an integer keep to a limit of four points together. With
parentheses around the integer they do not. -/
theorem combinators_act_limit :
    let machine : Machine Script :=
      { exec := [.name "left"], data := { integer := [7] }, random := {} }
    let interpreter : Interpreter Script := { Interpreter.new { maxPoints := 4 } {} with machine }
    let twice : Atom := .program [.integer 2, .name "integer.*"]
    let five : Atom := .program [.integer 5]
    let sameEffect := interpreter.Agree [.name "left"]
    interpreter.config.frameMode = false ∧
      sameEffect (machine.scheduleAll [.name "exec.k", twice, five]) (machine.scheduleAll [twice]) ∧
      sameEffect (machine.scheduleAll [.name "exec.s", .boolean true, twice, .integer 5])
        (machine.scheduleAll [.boolean true, .integer 5, twice, .integer 5]) ∧
      sameEffect (machine.scheduleAll [.name "exec.s", .boolean true, twice, five])
        (machine.scheduleAll [.boolean true, twice, five]) ∧
      sameEffect ((machine.withChoice .code false twice five).scheduleAll [.name "code.if"])
        (machine.scheduleAll [five]) := by
  intro machine interpreter twice five sameEffect
  have builtins : interpreter.instructions.HasBuiltins := InstructionSet.hasBuiltins_standard
  have product : interpreter.instructions.IsPlain interpreter.config (.name "integer.*") :=
    builtins.isPlain (.integer .mul) rfl
  have plain : ∀ atoms : Program,
      (∀ leaf ∈ atoms.leaves, leaf ∈ [.boolean true, .integer 2, .name "integer.*", .integer 5]) →
      ∀ leaf ∈ atoms.leaves, interpreter.instructions.IsPlain interpreter.config leaf := by
    intro atoms known leaf member
    have cases := known leaf member
    simp only [List.mem_cons, List.not_mem_nil, or_false] at cases
    rcases cases with rfl | rfl | rfl | rfl
    · trivial
    · trivial
    · exact product
    · trivial
  have tight := interpreter.combinators_act rfl builtins (.boolean true) twice (.integer 5)
    (plain _ (by decide +kernel))
  have loose := interpreter.combinators_act rfl builtins (.boolean true) twice five
    (plain _ (by decide +kernel))
  have paired :=
    interpreter.combinators_act rfl builtins twice five five (plain _ (by decide +kernel))
  exact ⟨rfl, paired.1, (tight.2.1 (by decide +kernel)).2, loose.2.2.1 (by decide +kernel),
    paired.2.2.2.2 .code false⟩

end Interpreter

end PushLang
