import PushLang.Proofs.Interpreter.Sequence
import PushLang.Proofs.Interpreter.Span
import PushLang.Random.Script

/-! Loops unroll. A loop lives on only as programs put in front of what is still to be executed; in
the end it has done what its body does once for every index. -/

namespace PushLang

variable {ρ : Type}

/-- The machine with the operands of a loop added: integers, top first, and the body on its
stack. -/
def Machine.withOperands (machine : Machine ρ) (stack : CodeStack) (integers : List Int32)
    (body : Atom) : Machine ρ :=
  let machine := { machine with
    data := { machine.data with integer := integers ++ machine.data.integer } }
  machine.setCodeItems stack (body :: machine.codeItems stack)

def loopName (stack : CodeStack) (which : Loop) : Atom := .name (Builtin.loop stack which).name

/-- A loop over some indices, written out. -/
def unrolled (indices : List Int32) (body : Atom) : Program :=
  indices.flatMap fun index => [.integer index, body]

namespace Machine

theorem loopCount_withOperands (machine : Machine ρ) (stack : CodeStack) {count : Int32}
    (positive : 0 < count) (operand : Atom) (body : Atom → Atom) :
    (machine.withOperands stack [count] operand).loopCount stack body =
      machine.scheduleAll [continuation stack 0 (count - 1) (body operand)] := by
  cases stack <;> simp [withOperands, loopCount, setCodeItems, codeItems, positive] <;> rfl

theorem loopCount_eq_self (machine : Machine ρ) (stack : CodeStack) {count : Int32}
    (negative : count ≤ 0) (top : machine.data.integer.top? = some count) (body : Atom → Atom) :
    machine.loopCount stack body = machine := by
  unfold loopCount
  split
  · rename_i found _ _ _ integers _
    obtain rfl : found = count := by simpa [integers, Stack.top?] using top
    rw [if_neg (Int32.not_lt.mpr negative)]
  · rfl

end Machine

theorem leaves_unrolled_cons (index : Int32) (indices : List Int32) (body : Atom) :
    (unrolled (index :: indices) body).leaves =
      .integer index :: (Program.leaves [body] ++ (unrolled indices body).leaves) := by
  rw [unrolled, List.flatMap_cons, List.cons_append, Program.leaves_leaf rfl, Program.leaves_append]
  rfl

namespace InstructionSet

variable {set : InstructionSet ρ} {config : Config} {context : Context} {body : Atom}

theorem isPlain_unrolled (indices : List Int32)
    (plain : ∀ leaf ∈ Program.leaves [body], set.IsPlain config leaf) :
    ∀ leaf ∈ (unrolled indices body).leaves, set.IsPlain config leaf := by
  induction indices with
  | nil => simp [unrolled]
  | cons index indices ih =>
    rw [leaves_unrolled_cons]
    exact List.forall_mem_cons.mpr ⟨trivial, List.forall_mem_append.mpr ⟨plain, ih⟩⟩

theorem isPlain_withoutIndex (builtins : set.HasBuiltins)
    (plain : ∀ leaf ∈ Program.leaves [body], set.IsPlain config leaf) :
    ∀ leaf ∈ Program.leaves [Machine.withoutIndex body], set.IsPlain config leaf := by
  have pop : set.IsPlain config (.name "integer.pop") := builtins.isPlain (.move .integer .pop) rfl
  refine (Program.forall_leaves_nested _ []).mpr
    ⟨(Program.forall_leaves_leaf rfl [body]).mpr ⟨pop, plain⟩, ?_⟩
  simp

variable [RandomSource ρ]

theorem execute_loopName (builtins : set.HasBuiltins) (stack : CodeStack) (which : Loop) :
    set.execute context (loopName stack which) = modify fun machine => machine.loop stack which :=
  execute_builtin builtins (.loop stack which)

/-- What follows the body of a loop: the rest of the loop, unless its index has arrived. -/
def continuations (stack : CodeStack) (current destination : Int32) (body : Atom) : List Atom :=
  (Machine.stepTowards current destination).toList.map fun next =>
    Machine.continuation stack next destination body

/-- A loop over a range leaves its index behind and puts its body and the rest of the loop in front
of what follows. -/
theorem reaches_body (builtins : set.HasBuiltins) (machine : Machine ρ) (stack : CodeStack)
    (current destination : Int32) (body : Atom) :
    set.Reaches context 1 ((machine.withOperands stack [destination, current] body).scheduleAll
      [loopName stack .range])
      ((machine.push (.integer current)).scheduleAll
        (body :: continuations stack current destination body)) := by
  refine .one rfl ?_
  rw [execute_loopName builtins]
  change EStateM.Result.ok () (Machine.loopRange _ stack) = _
  cases further : Machine.stepTowards current destination <;> cases stack <;>
    simp [Machine.withOperands, Machine.scheduleAll, Machine.loopRange, Machine.setCodeItems,
      Machine.codeItems, Machine.push, Stacks.push, continuations, Machine.schedule, further]

theorem reaches_restart (builtins : set.HasBuiltins) (frameless : context.frameMode = false)
    (machine : Machine ρ) (stack : CodeStack) (next destination : Int32) (body : Atom) :
    ∃ steps, set.Reaches context steps (machine.scheduleAll
      [Machine.continuation stack next destination body])
      ((machine.withOperands stack [destination, next] body).scheduleAll
        [loopName stack .range]) := by
  cases stack with
  | exec =>
    refine ⟨3, ?_⟩
    simp only [Reaches, run, runFrom, Machine.scheduleAll, Machine.continuation, execute, unfold,
      frameless, List.cons_append]
    rfl
  | code =>
    -- The body goes back to the code stack, where the loop expects it.
    let pushed : Machine ρ := (machine.push (.integer next)).push (.integer destination)
    have opened :
      set.Reaches context 3 (machine.scheduleAll [Machine.continuation .code next destination body])
        (pushed.scheduleAll [.name "code.quote", body, loopName .code .range]) := by
      simp only [Reaches, run, runFrom, Machine.scheduleAll, Machine.continuation, execute, unfold,
        frameless, List.cons_append]
      rfl
    have quoted :
      set.execute context (.name "code.quote") (pushed.scheduleAll [body, loopName .code .range]) =
        .ok () ((machine.withOperands .code [destination, next] body).scheduleAll
          [loopName .code .range]) := by
      rw [show set.execute context (.name "code.quote") = _ from execute_builtin builtins .quote]
      rfl
    exact ⟨3 + 1, opened.trans (.one rfl quoted)⟩

theorem reaches_range (builtins : set.HasBuiltins) (frameless : context.frameMode = false)
    (plain : ∀ leaf ∈ Program.leaves [body], set.IsPlain context leaf) (stack : CodeStack)
    (destination : Int32) (machine : Machine ρ) (current : Int32) :
    ∃ steps, set.Reaches context steps
      ((machine.withOperands stack [destination, current] body).scheduleAll [loopName stack .range])
      (machine.apply (set.updates context (unrolled (span current destination) body).leaves)) := by
  -- Induction on the indices to come; the machine changes with every run of the body.
  generalize indices : span current destination = remaining
  induction remaining generalizing machine current with
  | nil =>
    rw [span_eq] at indices
    cases indices
  | cons index later ih =>
    rw [span_eq, List.cons.injEq] at indices
    obtain ⟨rfl, tail⟩ := indices
    have performed := performs_of_plain frameless plain
    let indexed : Machine ρ := machine.push (.integer current)
    let after : Machine ρ := indexed.apply (set.updates context (Program.leaves [body]))
    have total : machine.apply (set.updates context (unrolled (current :: later) body).leaves) =
        after.apply (set.updates context (unrolled later body).leaves) := by
      rw [leaves_unrolled_cons, updates, updates_append]
      rfl
    have ran : set.Reaches context (1 + Program.size [body])
        ((machine.withOperands stack [destination, current] body).scheduleAll
          [loopName stack .range])
        (after.scheduleAll (continuations stack current destination body)) :=
      (reaches_body builtins machine stack current destination body).trans
        (performed indexed (continuations stack current destination body ++ machine.exec))
    rw [total]
    cases further : Machine.stepTowards current destination with
    | none =>
      simp only [further] at tail
      subst tail
      simp only [continuations, further] at ran
      exact ⟨_, ran⟩
    | some next =>
      simp only [further] at tail
      simp only [continuations, further] at ran
      obtain ⟨steps, restarted⟩ :=
        reaches_restart builtins frameless after stack next destination body
      obtain ⟨more, finished⟩ := ih after next tail
      exact ⟨_, (ran.trans restarted).trans finished⟩

theorem reaches_count (builtins : set.HasBuiltins) (frameless : context.frameMode = false)
    (plain : ∀ leaf ∈ Program.leaves [body], set.IsPlain context leaf) (stack : CodeStack)
      (machine : Machine ρ)
    {count : Int32} (positive : 0 < count) {which : Loop} {operand : Atom}
    (started : set.execute context (loopName stack which)
      (machine.withOperands stack [count] operand) =
      .ok () (machine.scheduleAll [Machine.continuation stack 0 (count - 1) body])) :
    ∃ steps, set.Reaches context steps
      ((machine.withOperands stack [count] operand).scheduleAll [loopName stack which])
      (machine.apply (set.updates context
        (unrolled ((List.range count.toInt.toNat).map Int32.ofNat) body).leaves)) := by
  have natural : 0 < count.toInt := by simpa using Int32.lt_iff_toInt_lt.mp positive
  have last : (count - 1).toInt = count.toInt - 1 := by
    have high := count.toInt_lt
    rw [Int32.toInt_sub, Int32.toInt_one, Int.bmod_eq_of_le (by omega) (by omega)]
  have indices : span 0 (count - 1) = (List.range count.toInt.toNat).map Int32.ofNat := by
    rw [span_zero (by omega), last]
    congr 2
    omega
  obtain ⟨opening, restarted⟩ := reaches_restart builtins frameless machine stack 0 (count - 1) body
  obtain ⟨more, finished⟩ := reaches_range builtins frameless plain stack (count - 1) machine 0
  rw [indices] at finished
  have begun : set.Reaches context 1 ((machine.withOperands stack [count] operand).scheduleAll
    [loopName stack which])
      (machine.scheduleAll [Machine.continuation stack 0 (count - 1) body]) := .one rfl started
  exact ⟨_, (begun.trans restarted).trans finished⟩

/-- An index that the body drops at once leaves no trace. -/
theorem updates_withoutIndex (builtins : set.HasBuiltins) (indices : List Int32) :
    set.updates context (unrolled indices (Machine.withoutIndex body)).leaves =
      set.updates context (Program.leaves (List.replicate indices.length body)) := by
  induction indices with
  | nil => rfl
  | cons index indices ih =>
    have dropped : set.execute context (.name "integer.pop") =
        (Builtin.move .integer .pop).run ⟨context, set.eligible⟩ :=
      execute_builtin builtins (.move .integer .pop)
    have leaves : Program.leaves [Machine.withoutIndex body] =
        .name "integer.pop" :: Program.leaves [body] := by
      rw [Machine.withoutIndex, Program.leaves_nested, Program.leaves_leaf rfl]
      simp
    rw [leaves_unrolled_cons, leaves, List.length_cons, Program.leaves_replicate_succ,
      updates_append, ← ih]
    simp only [updates, updates_append, List.cons_append, dropped]
    rfl

end InstructionSet

namespace Interpreter

variable [RandomSource ρ]

/-- Without frames, and with a plain body, a loop over a range does what its indices and its body do
one after the other. A counting loop does the same for the indices below a positive count, and a
repetition runs its body that often without an index. Without a positive count neither of these
changes anything. -/
theorem loops_unroll (interpreter : Interpreter ρ)
    (frameless : interpreter.config.frameMode = false)
    (builtins : interpreter.instructions.HasBuiltins) (stack : CodeStack) (body : Atom)
    (plain : ∀ leaf ∈ Program.leaves [body],
      interpreter.instructions.IsPlain interpreter.config leaf) :
    let machine := interpreter.machine
    let loop (which : Loop) (operands : List Int32) : Machine ρ :=
      (machine.withOperands stack operands body).scheduleAll [loopName stack which]
    (∀ current destination : Int32,
      (span current destination).map Int32.toInt =
          (List.range ((destination.toInt - current.toInt).natAbs + 1)).map (fun (step : Nat) =>
            current.toInt + (destination.toInt - current.toInt).sign * step) ∧
        interpreter.Agree machine.exec (loop .range [destination, current])
          (machine.scheduleAll (unrolled (span current destination) body))) ∧
    (∀ count : Int32, 0 < count →
      interpreter.Agree machine.exec (loop .count [count])
          (machine.scheduleAll (unrolled ((List.range count.toInt.toNat).map Int32.ofNat) body)) ∧
        interpreter.Agree machine.exec (loop .times [count])
          (machine.scheduleAll (List.replicate count.toInt.toNat body))) ∧
    (∀ which : Loop, which ≠ .range → ∀ count : Int32, count ≤ 0 →
      machine.data.integer.top? = some count →
      { interpreter with machine := machine.scheduleAll [loopName stack which] }.Reaches 1
        machine) := by
  intro machine loop
  refine ⟨fun current destination => ⟨toInt_span current destination, ?_⟩,
    fun count positive => ⟨?_, ?_⟩, ?_⟩
  · refine agree_of_reaches frameless (InstructionSet.isPlain_unrolled _ plain) ?_
    exact InstructionSet.reaches_range builtins frameless plain stack destination machine current
  · refine agree_of_reaches frameless (InstructionSet.isPlain_unrolled _ plain) ?_
    refine InstructionSet.reaches_count builtins frameless plain stack machine positive ?_
    rw [InstructionSet.execute_loopName builtins]
    exact congrArg _ (machine.loopCount_withOperands stack positive body id)
  · have plainer := InstructionSet.isPlain_withoutIndex builtins plain
    have started : interpreter.instructions.execute interpreter.context (loopName stack .times)
        (machine.withOperands stack [count] body) =
          .ok () (machine.scheduleAll [Machine.continuation stack 0 (count - 1)
            (Machine.withoutIndex body)]) := by
      rw [InstructionSet.execute_loopName builtins]
      exact congrArg _ (machine.loopCount_withOperands stack positive body Machine.withoutIndex)
    have reached :=
      InstructionSet.reaches_count builtins frameless plainer stack machine positive started
    rw [InstructionSet.updates_withoutIndex builtins, List.length_map, List.length_range] at reached
    exact agree_of_reaches frameless (InstructionSet.isPlain_replicate _ plain) reached
  · intro which counting count negative top
    refine interpreter.reaches_of_machine (.one rfl ?_)
    rw [InstructionSet.execute_loopName builtins]
    cases which with
    | range => exact absurd rfl counting
    | count => exact congrArg _ (machine.loopCount_eq_self stack negative top id)
    | times => exact congrArg _ (machine.loopCount_eq_self stack negative top Machine.withoutIndex)

/-- A countdown that multiplies its way through the indices, with the body nested and on the code
stack. -/
theorem loops_unroll_countdown :
    let machine : Machine Script :=
      { exec := [.name "left"], data := { integer := [7] }, random := {} }
    let interpreter : Interpreter Script := { Interpreter.new {} {} with machine }
    let body : Atom := .program [.name "integer.*"]
    interpreter.config.frameMode = false ∧
      interpreter.Agree [.name "left"] ((machine.withOperands .code [-1, 1] body).scheduleAll
        [.name "code.do*range"])
        (machine.scheduleAll [.integer 1, body, .integer 0, body, .integer (-1), body]) := by
  intro machine interpreter body
  have builtins : interpreter.instructions.HasBuiltins := InstructionSet.hasBuiltins_standard
  have plain :
      ∀ leaf ∈ Program.leaves [body], interpreter.instructions.IsPlain interpreter.config leaf := by
    refine (Program.forall_leaves_nested _ []).mpr
      ⟨(Program.forall_leaves_leaf rfl []).mpr ⟨?_, by simp⟩, by simp⟩
    exact builtins.isPlain (.integer .mul) rfl
  have unroll := (interpreter.loops_unroll rfl builtins .code body plain).1 1 (-1)
  exact ⟨rfl, unroll.2⟩

end Interpreter

end PushLang
