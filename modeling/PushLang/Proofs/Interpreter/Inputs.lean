import PushLang.Proofs.InstructionSet.Selection
import PushLang.Proofs.Interpreter.DepthMoves
import PushLang.Proofs.Interpreter.Sequence
import PushLang.Random.Script

namespace PushLang

/-- What an atom puts on the stack of a kind. Every atom has one kind, and none goes to the exec
stack. -/
def Atom.item? : Atom → (kind : StackKind) → Option kind.Item
  | .integer value, .integer => some value
  | .float value, .float => some value
  | .boolean value, .boolean => some value
  | .name text, .name => some text
  | .program body, .code => some (.program body)
  | _, _ => none

variable {ρ : Type}

namespace Machine

/-- A machine has got some values, the last one on top, each on the stack of its kind, and nothing
else has changed. -/
structure Receives (machine : Machine ρ) (values : List Atom) (after : Machine ρ) : Prop where
  items : ∀ kind,
    after.items kind = (machine.items kind).extend (values.filterMap fun value => value.item? kind)
  others : after = { machine with data := after.data }

theorem items_push (machine : Machine ρ) (value : Atom) (kind : StackKind) :
    (machine.push value).items kind = (value.item? kind).toList ++ machine.items kind := by
  cases value <;> cases kind <;> rfl

theorem receives_foldl_push (machine : Machine ρ) (values : List Atom) :
    machine.Receives values (values.foldl push machine) := by
  refine ⟨fun kind => ?_, by rw [foldl_push]⟩
  induction values generalizing machine with
  | nil => rfl
  | cons value values ih =>
    rw [List.foldl_cons, ih, items_push, List.filterMap_cons, Stack.extend]
    cases value.item? kind with
    | none => rfl
    | some item => simp [Stack.extend]

theorem foldl_pushInput (machine : Machine ρ) (indices : List Nat) :
    indices.foldl pushInput machine =
      (indices.filterMap machine.input.get?).foldl push machine := by
  induction indices generalizing machine with
  | nil => rfl
  | cons index indices ih =>
    rw [List.foldl_cons, ih, List.filterMap_cons, pushInput]
    cases machine.input.get? index with
    | none => rfl
    | some value => rfl

theorem pushInput_scheduleAll (machine : Machine ρ) (index : Nat) (atoms : List Atom) :
    (machine.scheduleAll atoms).pushInput index = (machine.pushInput index).scheduleAll atoms := by
  rw [pushInput_eq, pushInput_eq]
  rfl

/-- An integer on top chooses the input nearest to it. -/
theorem readInput_index {machine : Machine ρ} {argument : Int32} {integers : Stack Int32}
    (present : machine.input ≠ []) (argued : machine.data.integer = argument :: integers) :
    machine.readInput .index =
      (machine.withIntegers integers).pushInput
        (max 0 (min argument.toInt ((machine.input.depth : Int) - 1))).toNat := by
  obtain ⟨value, rest, inputs⟩ := List.exists_cons_of_ne_nil present
  have positive : 0 < machine.input.depth := List.length_pos_iff.mpr present
  have clamped : min argument.toInt.toNat (machine.input.depth - 1) =
      (max 0 (min argument.toInt ((machine.input.depth : Int) - 1))).toNat := by omega
  rw [← clamped, readInput, pushIndexedInput]
  split
  · rename_i taken
    obtain ⟨rfl, rfl⟩ := List.cons.inj (argued.symm.trans taken)
    rfl
  · rename_i missing
    exact (missing _ _ _ _ inputs argued).elim

end Machine

namespace InstructionSet

/-- A list that asks for inputs alone selects them, and leaves every other instruction as it is. -/
theorem configure_inputs (set : InstructionSet ρ) {digits : String} {count : Nat}
    (number : Numeral.word64? digits.toList = some count) :
    ∃ after, set.configure [.name (Entry.inputsLead ++ digits)] = (.ok (), after) ∧
      (∀ index < count, after.get? (inputName index) = some (.inputAt index)) ∧
      ∀ which : Builtin, after.get? which.name = set.get? which.name := by
  refine ⟨_, selectFrom_cons_ok (set.judge_inputs number) [] [], fun index within => ?_,
    fun which => ?_⟩
  · exact (set.hasInput_defineInputs within).1
  · exact (set.agreeOn_defineInputs fun index _ => which.name_ne_inputName index).1

variable [RandomSource ρ]

theorem reaches_inputs {set : InstructionSet ρ} (context : Context) {indices : List Nat}
    (known : ∀ index ∈ indices, set.get? (inputName index) = some (.inputAt index))
    (machine : Machine ρ) :
    set.Reaches context indices.length (machine.scheduleAll
      (indices.map fun index => .name (inputName index)))
      (indices.foldl Machine.pushInput machine) := by
  induction indices generalizing machine with
  | nil => exact .refl machine
  | cons index indices ih =>
    obtain ⟨first, later⟩ := List.forall_mem_cons.mp known
    let names : List Atom := indices.map fun index => .name (inputName index)
    have read : set.Reaches context 1 (machine.scheduleAll (.name (inputName index) :: names))
        ((machine.scheduleAll names).pushInput index) :=
      .one rfl (congrFun (execute_name first context) (machine.scheduleAll names))
    rw [Machine.pushInput_scheduleAll] at read
    rw [List.length_cons, Nat.add_comm]
    exact read.trans (ih later (machine.pushInput index))

end InstructionSet

namespace Interpreter

variable [RandomSource ρ]

/-- Executing some atoms one after the other leads from one machine to another, and none of them
fails. -/
def Executes (interpreter : Interpreter ρ) (atoms : List Atom) (before after : Machine ρ) : Prop :=
  { interpreter with machine := before.scheduleAll atoms }.Reaches atoms.length after

theorem executes_input {interpreter : Interpreter ρ} {op : InputOp}
    (reads : interpreter.instructions.get? op.name = some (.builtin (.input op)))
    (machine : Machine ρ) :
    interpreter.Executes [.name op.name] machine (machine.readInput op) :=
  interpreter.reaches_of_machine (.one rfl
    (congrFun (InstructionSet.execute_name reads interpreter.context) machine))

theorem executes_inputs {interpreter : Interpreter ρ} {indices : List Nat}
    (known : ∀ index ∈ indices,
      interpreter.instructions.get? (InstructionSet.inputName index) = some (.inputAt index))
    (machine : Machine ρ) :
    interpreter.Executes (indices.map fun index => .name (InstructionSet.inputName index)) machine
      ((indices.filterMap machine.input.get?).foldl Machine.push machine) := by
  rw [Executes, List.length_map, ← Machine.foldl_pushInput]
  exact interpreter.reaches_of_machine
    (InstructionSet.reaches_inputs interpreter.context known machine)

/-- Once inputs are selected, at least as many as there are, reading all of them at once does what
reading them under their names does in the same order, and every value lands on the stack of its
kind. Reading the input that an integer names does what reading the nearest one there is does under
its name. -/
theorem inputs_agree (interpreter : Interpreter ρ)
    (reads : ∀ op : InputOp, interpreter.instructions.get? op.name = some (.builtin (.input op)))
    {digits : String} {count : Nat} (number : Numeral.word64? digits.toList = some count) :
    ∃ configured,
      interpreter.configure [.name ("input.makeinputs" ++ digits)] = (.ok (), configured) ∧
      ∀ machine : Machine ρ, machine.input.depth ≤ count →
        let names : List Atom := (List.range count).map fun index =>
          .name ("input.in" ++ toString index)
        (∃ after, machine.Receives machine.input.toBottom after ∧
          configured.Executes [.name "input.inall"] machine after ∧
            configured.Executes names machine after) ∧
        (∃ after, machine.Receives machine.input after ∧
          configured.Executes [.name "input.inallrev"] machine after ∧
            configured.Executes names.reverse machine after) ∧
        ∀ argument integers, machine.input ≠ [] → machine.data.integer = argument :: integers →
          let nearest := (max 0 (min argument.toInt ((machine.input.depth : Int) - 1))).toNat
          ∃ value after, machine.input.get? nearest = some value ∧
            (machine.withIntegers integers).Receives [value] after ∧
            configured.Executes [.name "input.index"] machine after ∧
            configured.Executes [.name ("input.in" ++ toString nearest)]
              (machine.withIntegers integers) after := by
  obtain ⟨instructions, selected, known, kept⟩ := interpreter.instructions.configure_inputs number
  let configured : Interpreter ρ := { interpreter with instructions }
  -- Either way of reading pushes values in a row, so only the rows have to be compared.
  have bulk (op : InputOp) (machine : Machine ρ) :
      configured.Executes [.name op.name] machine (machine.readInput op) :=
    executes_input ((kept (.input op)).trans (reads op)) machine
  have single (indices : List Nat) (within : ∀ index ∈ indices, index < count)
    (machine : Machine ρ) :
      configured.Executes (indices.map fun index => .name (InstructionSet.inputName index)) machine
        ((indices.filterMap machine.input.get?).foldl Machine.push machine) :=
    executes_inputs (fun index member => known index (within index member)) machine
  refine ⟨configured, ?_, fun machine enough => ⟨?_, ?_, ?_⟩⟩
  · exact congrArg (fun result => (result.1, { interpreter with instructions := result.2 }))
      selected
  · refine ⟨_, machine.receives_foldl_push _, bulk .all machine, ?_⟩
    have ordered := single (List.range count) (fun index member => List.mem_range.mp member) machine
    rwa [Stack.filterMap_get?_range enough] at ordered
  · refine ⟨_, machine.receives_foldl_push _, bulk .allReversed machine, ?_⟩
    have ordered := single (List.range count).reverse
      (fun index member => List.mem_range.mp (List.mem_reverse.mp member)) machine
    rwa [List.filterMap_reverse, Stack.filterMap_get?_range enough, Stack.toBottom,
      List.reverse_reverse, List.map_reverse] at ordered
  · intro argument integers present argued nearest
    have positive : 0 < machine.input.depth := List.length_pos_iff.mpr present
    have inside : nearest < machine.input.depth := by omega
    obtain ⟨value, held⟩ :=
      Option.isSome_iff_exists.mp ((machine.input.isSome_get? nearest).mpr inside)
    have read := single [nearest] (by simpa using Nat.lt_of_lt_of_le inside enough)
      (machine.withIntegers integers)
    have pushed : [nearest].filterMap (machine.withIntegers integers).input.get? = [value] := by
      simp [Machine.withIntegers, held]
    rw [pushed] at read
    refine ⟨value, _, held, (machine.withIntegers integers).receives_foldl_push [value], ?_, read⟩
    have indexed := bulk .index machine
    rw [Machine.readInput_index present argued, Machine.pushInput,
      show (machine.withIntegers integers).input.get? nearest = some value from held] at indexed
    exact indexed

/-- Three reads of two inputs, one of them a program, and an integer below all indices. -/
theorem inputs_agree_mixed :
    let interpreter : Interpreter Script := Interpreter.new {} {}
    let nested : Atom := .program [.integer 1]
    let machine : Machine Script :=
      { input := [nested, .name "x"], data := { integer := [-4] }, random := {} }
    ∃ configured, interpreter.configure [.name "input.makeinputs3"] = (.ok (), configured) ∧
      machine.input.depth ≤ 3 ∧
      (∃ after, (after.items .name = ["x"] ∧ after.items .code = [nested]) ∧
        configured.Executes [.name "input.inall"] machine after ∧
        configured.Executes [.name "input.in0", .name "input.in1", .name "input.in2"] machine
          after) ∧
      ∃ after, after.items .name = ["x"] ∧ configured.Executes [.name "input.index"] machine after ∧
        configured.Executes [.name "input.in0"] (machine.withIntegers []) after := by
  intro interpreter nested machine
  have reads (op : InputOp) : interpreter.instructions.get? op.name = some (.builtin (.input op)) :=
    InstructionSet.hasBuiltins_standard (.input op)
  have number : Numeral.word64? "3".toList = some 3 := by decide
  have enough : machine.input.depth ≤ 3 := by decide
  obtain ⟨configured, selected, agree⟩ := interpreter.inputs_agree reads number
  obtain ⟨⟨all, received, bulk, single⟩, -, indexed⟩ := agree machine enough
  obtain ⟨value, after, held, named, index, read⟩ := indexed (-4) [] (by simp [machine]) rfl
  have lowest : (max 0 (min (-4 : Int32).toInt ((machine.input.depth : Int) - 1))).toNat = 0 := by
    decide
  obtain rfl : .name "x" = value := Option.some.inj held
  rw [lowest] at read
  exact ⟨configured, selected, enough,
    ⟨all, ⟨received.items .name, received.items .code⟩, bulk, single⟩, after, named.items .name,
    index, read⟩

end Interpreter

end PushLang
