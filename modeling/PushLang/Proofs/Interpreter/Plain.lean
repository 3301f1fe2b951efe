import PushLang.Proofs.InstructionSet.Builtins
import PushLang.Proofs.Safety.Generation

/-! Plain atoms. They work on the typed stacks and the random source alone, so that what they do
there does not depend on what is still to be executed or on the stacks of callers. -/

namespace PushLang

variable {ρ : Type}

/-- What an action does to the typed stacks and the random source, given the inputs. -/
abbrev Update (ρ : Type) := Stack Atom → Stacks × ρ → Stacks × ρ

/-- The machine with an update made and everything else as it was. -/
def Machine.apply (machine : Machine ρ) (update : Update ρ) : Machine ρ :=
  let after := update machine.input (machine.data, machine.random)
  { machine with data := after.1, random := after.2 }

namespace Action

/-- The update that an action makes on a machine with nothing else to execute. -/
def update (action : Action ρ Unit) : Update ρ := fun input (data, random) =>
  match action { input, data, random } with
  | .ok _ after | .error _ after => (after.data, after.random)

/-- An action that never fails and does no more than its update. -/
def IsPlain (action : Action ρ Unit) : Prop :=
  ∀ machine, action machine = .ok () (machine.apply action.update)

theorem isPlain_of_apply {action : Action ρ Unit} (update : Update ρ)
    (applied : ∀ machine, action machine = .ok () (machine.apply update)) : action.IsPlain := by
  have same : action.update = update := by
    funext input state
    simp only [Action.update, applied, Machine.apply]
  intro machine
  rw [same, applied]

end Action

namespace Machine

theorem foldl_push (machine : Machine ρ) (atoms : List Atom) :
    atoms.foldl push machine = { machine with data := atoms.foldl Stacks.push machine.data } := by
  induction atoms generalizing machine with
  | nil => rfl
  | cons atom atoms ih => simp only [List.foldl_cons, ih, push]

theorem pushInput_eq (machine : Machine ρ) (index : Nat) :
    machine.pushInput index =
      { machine with data := ((machine.input.get? index).map
        machine.data.push).getD machine.data } := by
  unfold pushInput
  cases machine.input.get? index <;> rfl

end Machine

/-- Whether a built-in instruction is plain: it neither reads nor changes what is still to be
executed, and it opens and closes no frame. -/
def Builtin.isPlain (config : Config) : Builtin → Bool
  | .quote | .choose _ | .loop _ _ | .combinator _ | .compareNext => false
  | .randomCode stack => stack = .code
  | .move kind _ | .moveDeep kind _ | .depth kind => kind ≠ .exec
  | .frame _ => !config.frameMode
  | .integer _ | .float _ | .boolean _ | .code _ | .constant _ | .noop _ | .input _ => true

def Instruction.isPlain (config : Config) : Instruction ρ → Bool
  | .builtin which => which.isPlain config
  | .inputAt _ => true
  | .added _ => false

/-- A plain leaf: a literal, a name without an instruction, or the name of a plain instruction. -/
def InstructionSet.IsPlain (set : InstructionSet ρ) (config : Config) : Atom → Prop
  | .program _ => False
  | .name text => ∀ instruction ∈ set.get? text, instruction.isPlain config = true
  | .integer _ | .float _ | .boolean _ => True

theorem InstructionSet.HasBuiltins.isPlain {set : InstructionSet ρ} {config : Config}
    (builtins : set.HasBuiltins) (which : Builtin) (plain : which.isPlain config = true) :
    set.IsPlain config (.name which.name) := by
  intro instruction found
  rw [builtins which] at found
  obtain rfl := Option.mem_some_iff.mp found
  exact plain

section

variable (env : Environment)

private theorem pushInput_isPlain (index : Nat) :
    Action.IsPlain (modify fun machine => machine.pushInput index : Action ρ Unit) := by
  refine Action.isPlain_of_apply (fun input (data, random) =>
    (((input.get? index).map data.push).getD data, random)) fun machine => ?_
  change EStateM.Result.ok () (machine.pushInput index) = _
  rw [Machine.pushInput_eq]
  rfl

private theorem readInput_isPlain (op : InputOp) :
    Action.IsPlain (modify fun machine => machine.readInput op : Action ρ Unit) := by
  cases op with
  | index =>
    refine Action.isPlain_of_apply (fun input (data, random) =>
      (({ input, data, random } : Machine ρ).pushIndexedInput.data, random)) fun machine => ?_
    change EStateM.Result.ok () machine.pushIndexedInput = _
    simp only [Machine.apply, Machine.pushIndexedInput]
    split
    · simp only [Machine.pushInput_eq]
    · rfl
  | all =>
    refine Action.isPlain_of_apply (fun input (data, random) =>
      (input.toBottom.foldl Stacks.push data, random)) fun machine => ?_
    change EStateM.Result.ok () (machine.input.toBottom.foldl Machine.push machine) = _
    rw [Machine.foldl_push]
    rfl
  | allReversed =>
    refine Action.isPlain_of_apply (fun input (data, random) =>
      (input.foldl Stacks.push data, random)) fun machine => ?_
    change EStateM.Result.ok () (machine.input.foldl Machine.push machine) = _
    rw [Machine.foldl_push]
    rfl
  | depth => exact fun machine => rfl

private theorem moveDeep_isPlain {kind : StackKind} (typed : kind ≠ .exec) (op : DepthMove) :
    Action.IsPlain (modify fun machine => machine.moveDeep kind op : Action ρ Unit) := by
  refine Action.isPlain_of_apply (fun input (data, random) =>
    (({ input, data, random } : Machine ρ).moveDeep kind op |>.data, random)) fun machine => ?_
  have bareDepth : machine.depth kind =
      ({ input := machine.input, data := machine.data, random := machine.random } : Machine ρ).depth
        kind := by
    cases kind <;> trivial
  change EStateM.Result.ok () (machine.moveDeep kind op) = _
  simp only [Machine.apply, Machine.moveDeep, bareDepth]
  split
  · rfl
  · by_cases empty : ({ input := machine.input, data := machine.data, random := machine.random } :
      Machine ρ).depth kind = 0
    · simp only [if_pos empty]
    · simp only [if_neg empty, Machine.onStack]
      cases kind with
      | exec => exact absurd rfl typed
      | integer | float | boolean | name | code => rfl

variable [RandomSource ρ]

/-- Pushing random code on the code stack cannot fail: without a generator it does nothing. -/
private theorem pushRandomCode_isPlain :
    Action.IsPlain (env.pushRandomCode .code : Action ρ Unit) := by
  refine Action.isPlain_of_apply (Action.update (env.pushRandomCode .code)) fun machine => ?_
  cases integers : machine.data.integer with
  | nil => simp [Machine.apply, Action.update, Environment.pushRandomCode, integers]
  | cons requested integers =>
    by_cases eligible : env.eligible = []
    · simp [Machine.apply, Action.update, Environment.pushRandomCode, *]
    · obtain ⟨code, source, drawn, -⟩ :=
        Checked.boundedCode_passes eligible requested machine.random
      simp [Machine.apply, Action.update, Environment.pushRandomCode, Action.ofDraw,
        Machine.setCodeItems, Machine.codeItems, *]

theorem Builtin.run_isPlain {which : Builtin} (plain : which.isPlain env.config = true) :
    Action.IsPlain (which.run env : Action ρ Unit) := by
  cases which with
  | quote | choose _ | loop _ _ | combinator _ | compareNext => simp [Builtin.isPlain] at plain
  | integer op | float op | boolean op | code op | noop stack => exact fun machine => rfl
  | constant kind => cases kind <;> exact fun machine => rfl
  | randomCode stack =>
    obtain rfl : stack = .code := by simpa [Builtin.isPlain] using plain
    exact pushRandomCode_isPlain env
  | input op => exact readInput_isPlain op
  | move kind op =>
    have typed : kind ≠ .exec := by simpa [Builtin.isPlain] using plain
    cases kind with
    | exec => exact absurd rfl typed
    | integer | float | boolean | name | code => exact fun machine => rfl
  | moveDeep kind op => exact moveDeep_isPlain (by simpa [Builtin.isPlain] using plain) op
  | depth kind =>
    have typed : kind ≠ .exec := by simpa [Builtin.isPlain] using plain
    cases kind with
    | exec => exact absurd rfl typed
    | integer | float | boolean | name | code => exact fun machine => rfl
  | frame op =>
    have frameless : env.config.frameMode = false := by simpa [Builtin.isPlain] using plain
    refine Action.isPlain_of_apply (fun _ state => state) fun machine => ?_
    change EStateM.Result.ok () (machine.changeFrame env.config op) = _
    simp [Machine.changeFrame, frameless, Machine.apply]

theorem InstructionSet.execute_isPlain {set : InstructionSet ρ} {context : Context} {leaf : Atom}
    (plain : set.IsPlain context leaf) : Action.IsPlain (set.execute context leaf) := by
  cases leaf with
  | program body => exact False.elim plain
  | integer value | float value | boolean value => exact fun machine => rfl
  | name text =>
    cases found : set.get? text with
    | none =>
      simp only [execute, found]
      exact fun machine => rfl
    | some instruction =>
      simp only [execute, found]
      have allowed : instruction.isPlain context = true := plain instruction found
      cases instruction with
      | builtin which => exact Builtin.run_isPlain _ allowed
      | inputAt index => exact pushInput_isPlain index
      | added effect => simp [Instruction.isPlain] at allowed

theorem InstructionSet.execute_counts {set : InstructionSet ρ} {context : Context} {leaf : Atom}
    (plain : set.IsPlain context leaf) (counts : Counts) :
    set.execute { context with counts } leaf = set.execute context leaf := by
  cases leaf with
  | program body => exact False.elim plain
  | integer value | float value | boolean value => rfl
  | name text =>
    cases found : set.get? text with
    | none => simp only [execute, found]
    | some instruction =>
      simp only [execute, found]
      have allowed : instruction.isPlain context = true := plain instruction found
      cases instruction with
      | builtin which | inputAt index => rfl
      | added effect => simp [Instruction.isPlain] at allowed

end

end PushLang
