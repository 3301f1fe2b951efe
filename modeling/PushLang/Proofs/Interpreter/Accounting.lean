import PushLang.Proofs.Interpreter.Forgetting
import PushLang.Proofs.Interpreter.Run
import PushLang.Proofs.Safety.Execution

namespace PushLang

variable {ρ : Type} [RandomSource ρ]

namespace InstructionSet

variable (set : InstructionSet ρ) (context : Context)

/-- The atoms that a run takes off the exec stack and executes without an error, in order. -/
def executed : Nat → Machine ρ → List Atom
  | 0, _ => []
  | budget + 1, machine => match machine.exec with
    | [] => []
    | atom :: rest => match set.execute context atom { machine with exec := rest } with
      | .ok () after => atom :: executed budget after
      | .error _ _ => []

theorem taken_runFrom (taken budget : Nat) (machine : Machine ρ) :
    (set.runFrom context taken budget machine).taken =
      taken + (set.executed context budget machine).length := by
  induction budget generalizing taken machine with
  | zero => rfl
  | succ budget ih =>
    cases pending : machine.exec with
    | nil => simp only [runFrom, executed, pending, List.length_nil, Nat.add_zero]
    | cons atom rest =>
      simp only [runFrom, executed, pending]
      cases set.execute context atom { machine with exec := rest } with
      | ok _ after =>
        simp only [ih, List.length_cons]
        omega
      | error cause after => rfl

end InstructionSet

/-- What an event made an interpreter do: the atoms executed without an error, in order, and whether
the one after them failed. -/
structure Episode where
  executed : List Atom := []
  aborted : Bool := false

namespace Episode

/-- The executed atoms that no count of steps takes in. -/
def uncounted (episode : Episode) : List Atom := bif episode.aborted then episode.executed else []

/-- The episode of a run. -/
def ofRun (set : InstructionSet ρ) (context : Context) (budget : Nat) (machine : Machine ρ) :
    Episode where
  executed := set.executed context budget machine
  aborted := (set.run context budget machine).failure.isSome

theorem reported_add_uncounted (set : InstructionSet ρ) (context : Context) (budget : Nat)
    (machine : Machine ρ) :
    (set.run context budget machine).result.toOption.getD 0 +
      (ofRun set context budget machine).uncounted.length =
      (ofRun set context budget machine).executed.length := by
  have taken :
      (set.run context budget machine).taken = (set.executed context budget machine).length := by
    rw [InstructionSet.run, set.taken_runFrom, Nat.zero_add]
  simp only [ofRun, uncounted]
  generalize set.run context budget machine = run at taken
  obtain ⟨after, counted, failure⟩ := run
  cases failure with
  | none => exact taken
  | some cause => exact Nat.zero_add _

/-- A run that comes to an atom that fails is aborted there, with the atoms on the way executed. -/
theorem ofRun_of_failing {set : InstructionSet ρ} {context : Context} {steps : Nat}
    {start middle after : Machine ρ} {atom : Atom} {rest : Stack Atom} {cause : Error}
    (more : Nat) (reached : set.Reaches context steps start middle)
    (pending : middle.exec = atom :: rest)
    (failed : set.execute context atom { middle with exec := rest } = .error cause after) :
    (ofRun set context (steps + (more + 1)) start).executed.length = steps ∧
      (ofRun set context (steps + (more + 1)) start).aborted = true := by
  have stopped : set.run context (steps + (more + 1)) start = ⟨after, steps, some cause⟩ := by
    rw [InstructionSet.run, reached.runFrom]
    simp only [InstructionSet.runFrom, pending, failed, Nat.zero_add]
  constructor
  · have taken := set.taken_runFrom context 0 (steps + (more + 1)) start
    rw [← InstructionSet.run, stopped, Nat.zero_add] at taken
    exact taken.symm
  · simp only [ofRun, stopped, Option.isSome_some]

end Episode

namespace Interpreter

/-- The call of `step` that an event comes to, if it does: the interpreter then, and the budget. -/
def calls? (interpreter : Interpreter ρ) : Event ρ → Option (Interpreter ρ × Nat)
  | .step budget => some (interpreter, budget)
  | .execute program budget => some (interpreter.start program, budget)
  | .run program => some (interpreter.start program, interpreter.config.executionLimit)
  | .evaluateCase program seed =>
    let cleared := interpreter.onMachine fun machine => seed machine.clear
    some (cleared.start program, interpreter.config.executionLimit)
  | .load _ | .pushFrame | .popFrame | .clear | .addCustomStack | .edit _ => none

/-- The episode of an event. -/
def episode (interpreter : Interpreter ρ) (event : Event ρ) : Episode :=
  match interpreter.calls? event with
  | some (caller, budget) => .ofRun caller.instructions caller.context budget caller.machine
  | none => {}

/-- The episodes of some events, the first one first. -/
def history (interpreter : Interpreter ρ) : List (Event ρ) → List Episode
  | [] => []
  | event :: past => interpreter.episode event :: (interpreter.handle event).history past

theorem totalSteps_step (interpreter : Interpreter ρ) (budget : Nat) :
    (interpreter.step budget).2.totalSteps + (interpreter.episode (.step budget)).uncounted.length =
      interpreter.totalSteps + (interpreter.episode (.step budget)).executed.length := by
  have reported := Episode.reported_add_uncounted interpreter.instructions interpreter.context
    budget interpreter.machine
  rw [step_eq]
  simp only [episode, calls?, ← reported, Nat.add_assoc]

theorem totalSteps_handle (interpreter : Interpreter ρ) (event : Event ρ) :
    (interpreter.handle event).totalSteps + (interpreter.episode event).uncounted.length =
      interpreter.totalSteps + (interpreter.episode event).executed.length := by
  cases event with
  | load | pushFrame | popFrame | clear | addCustomStack | edit => rfl
  | step budget => exact interpreter.totalSteps_step budget
  | execute program budget => exact (interpreter.start program).totalSteps_step budget
  | run program => exact (interpreter.start program).totalSteps_step _
  | evaluateCase program seed =>
    let cleared := interpreter.onMachine fun machine => seed machine.clear
    exact (cleared.start program).totalSteps_step _

theorem totalSteps_afterAll (interpreter : Interpreter ρ) (past : List (Event ρ)) :
    (interpreter.afterAll past).totalSteps +
      ((interpreter.history past).flatMap Episode.uncounted).length =
      interpreter.totalSteps + ((interpreter.history past).flatMap Episode.executed).length := by
  induction past generalizing interpreter with
  | nil => rfl
  | cons event past ih =>
    have first := interpreter.totalSteps_handle event
    have later := ih (interpreter.handle event)
    simp only [history, List.flatMap_cons, List.length_append]
    change ((interpreter.handle event).afterAll past).totalSteps + _ = _
    omega

theorem aborted_episode {interpreter : Interpreter ρ}
    (standard : interpreter.instructions.IsStandard) (event : Event ρ) :
    (interpreter.episode event).aborted = false := by
  unfold episode
  split
  · rename_i caller budget call
    have same : caller.instructions = interpreter.instructions := by
      cases event <;> cases call <;> rfl
    obtain ⟨taken, after, -, -, ended, -⟩ :=
      Checked.runFrom_eq caller.context (same ▸ standard) 0 budget caller.machine
    simp only [Episode.ofRun, InstructionSet.run, ended, Option.isSome_none]
  · rfl

theorem totalSteps_of_isStandard {interpreter : Interpreter ρ}
    (standard : interpreter.instructions.IsStandard) (past : List (Event ρ)) :
    (interpreter.afterAll past).totalSteps =
      interpreter.totalSteps + ((interpreter.history past).flatMap Episode.executed).length := by
  have nothing : (interpreter.history past).flatMap Episode.uncounted = [] := by
    induction past generalizing interpreter with
    | nil => rfl
    | cons event past ih =>
      have later : (interpreter.handle event).instructions.IsStandard := by
        rwa [(interpreter.handle_setup event).2]
      rw [history, List.flatMap_cons, ih later, Episode.uncounted, aborted_episode standard,
        cond_false]
      rfl
  have accounted := interpreter.totalSteps_afterAll past
  rwa [nothing] at accounted

/-- The count of steps is the number of atoms executed without an error, less those executed in
calls that were aborted later on. So nothing is missing exactly if every call that was aborted was
so by its first atom. -/
theorem totalSteps_complete_iff (interpreter : Interpreter ρ) (past : List (Event ρ)) :
    (interpreter.afterAll past).totalSteps +
      ((interpreter.history past).flatMap Episode.uncounted).length =
        interpreter.totalSteps + ((interpreter.history past).flatMap Episode.executed).length ∧
      ((interpreter.afterAll past).totalSteps =
          interpreter.totalSteps + ((interpreter.history past).flatMap Episode.executed).length ↔
        ∀ episode ∈ interpreter.history past, episode.aborted = true → episode.executed = []) := by
  have accounted := interpreter.totalSteps_afterAll past
  refine ⟨accounted, ?_⟩
  have complete : (interpreter.afterAll past).totalSteps =
      interpreter.totalSteps + ((interpreter.history past).flatMap Episode.executed).length ↔
        (interpreter.history past).flatMap Episode.uncounted = [] := by
    rw [← List.length_eq_zero_iff]
    omega
  rw [complete, List.flatMap_eq_nil_iff]
  refine forall₂_congr fun episode _ => ?_
  cases aborted : episode.aborted with
  | true => simp [Episode.uncounted, aborted]
  | false => simp [Episode.uncounted, aborted]

/-- A program whose second atom fails: the program was opened and its first atom was executed, and
neither is counted. -/
theorem totalSteps_incomplete :
    let broken : Instruction Script := .added fun _ machine =>
      .error (.state "broken instruction") machine
    let interpreter := (Interpreter.new {} ({} : Script)).addInstruction "broken" broken
    let past : List (Event Script) := [.execute [.integer 1, .name "broken", .integer 2] 10]
    let executed := (interpreter.history past).flatMap Episode.executed
    interpreter.totalSteps = 0 ∧ executed.length = 2 ∧ (interpreter.afterAll past).totalSteps = 0 ∧
      (interpreter.afterAll past).totalSteps ≠ interpreter.totalSteps + executed.length := by
  intro broken interpreter past executed
  let caller := interpreter.start [.integer 1, .name "broken", .integer 2]
  let opened := { caller.machine with exec := [.integer 1, .name "broken", .integer 2] }
  let middle :=
    { opened with exec := [.name "broken", .integer 2], data := opened.data.push (.integer 1) }
  have found (set : InstructionSet Script) :
      (set.add "broken" broken).get? "broken" = some broken :=
    (set.get?_define "broken" "broken" broken).trans (if_pos rfl)
  have failed (machine : Machine Script) :
      caller.instructions.execute caller.context (.name "broken") machine =
        .error (.state "broken instruction") machine :=
    congrFun (InstructionSet.execute_name (found .standard) caller.context) machine
  have opens : caller.instructions.Reaches caller.context 1 caller.machine opened := .one rfl rfl
  have pushes : caller.instructions.Reaches caller.context 1 opened middle := .one rfl rfl
  let episode : Episode := .ofRun caller.instructions caller.context 10 caller.machine
  obtain ⟨steps, aborted⟩ : episode.executed.length = 2 ∧ episode.aborted = true :=
    Episode.ofRun_of_failing 7 (opens.trans pushes) rfl (failed _)
  have history : interpreter.history past = [episode] := rfl
  have count : executed.length = 2 := by
    simp only [executed, history, List.flatMap_singleton, steps]
  have fresh : interpreter.totalSteps = 0 := rfl
  have total : (interpreter.afterAll past).totalSteps = 0 := by
    have accounted := interpreter.totalSteps_afterAll past
    simp only [history, List.flatMap_singleton, Episode.uncounted, aborted, cond_true, steps, fresh]
      at accounted
    omega
  refine ⟨fresh, count, total, ?_⟩
  rw [total, count, fresh]
  decide

end Interpreter

end PushLang
