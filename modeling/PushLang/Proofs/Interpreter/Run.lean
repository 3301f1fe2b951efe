import PushLang.Interpreter.Basic

namespace PushLang

variable {ρ : Type}

/-- The machine that an action leaves behind, whether it fails or not. -/
def Action.after (action : Action ρ Unit) (machine : Machine ρ) : Machine ρ :=
  match action machine with
  | .ok _ after | .error _ after => after

variable [RandomSource ρ]

namespace InstructionSet

theorem execute_name {set : InstructionSet ρ} {name : String} {instruction : Instruction ρ}
    (found : set.get? name = some instruction) (context : Context) :
    set.execute context (.name name) =
      instruction.run ⟨⟨context, set.eligible⟩, context.counts⟩ := by
  simp only [execute, found, view]

variable (set : InstructionSet ρ) (context : Context)

theorem runFrom_of_halted {machine : Machine ρ} (halted : machine.exec = []) (taken budget : Nat) :
    set.runFrom context taken budget machine = ⟨machine, taken, none⟩ := by
  cases budget with
  | zero => rfl
  | succ budget => simp only [runFrom, halted]

theorem runFrom_preserves {motive : Machine ρ → Prop}
    (step : ∀ machine atom rest, machine.exec = atom :: rest → motive machine →
      motive ((set.execute context atom).after { machine with exec := rest }))
    (taken budget : Nat) {machine : Machine ρ} (initial : motive machine) :
    motive (set.runFrom context taken budget machine).machine := by
  induction budget generalizing taken machine with
  | zero => exact initial
  | succ budget ih =>
    cases pending : machine.exec with
    | nil => rwa [runFrom_of_halted set context pending]
    | cons atom rest =>
      have preserved := step machine atom rest pending initial
      simp only [runFrom, pending]
      cases executed : set.execute context atom { machine with exec := rest } with
      | ok _ next =>
        rw [Action.after, executed] at preserved
        exact ih (taken + 1) preserved
      | error cause last =>
        rw [Action.after, executed] at preserved
        exact preserved

/-- A run goes on from where a shorter one stopped, unless that one failed. -/
theorem runFrom_add (taken first second : Nat) (machine : Machine ρ) :
    set.runFrom context taken (first + second) machine =
      let run := set.runFrom context taken first machine
      if run.failure.isSome then run else set.runFrom context run.taken second run.machine := by
  induction first generalizing taken machine with
  | zero => simp [runFrom]
  | succ first ih =>
    rw [Nat.add_right_comm]
    cases pending : machine.exec with
    | nil => simp [runFrom_of_halted set context pending]
    | cons atom rest =>
      simp only [runFrom, pending]
      cases set.execute context atom { machine with exec := rest } with
      | ok _ after => exact ih (taken + 1) after
      | error cause after => simp

/-- A run takes no more atoms than its budget, and what it leaves behind it has with that budget
already. -/
theorem exists_runFrom (taken budget : Nat) (machine : Machine ρ) :
    ∃ more ≤ budget, (set.runFrom context taken budget machine).taken = taken + more ∧
      ((set.runFrom context taken budget machine).failure = none →
        set.runFrom context taken more machine = set.runFrom context taken budget machine) := by
  induction budget generalizing taken machine with
  | zero => exact ⟨0, Nat.le_refl 0, rfl, fun _ => rfl⟩
  | succ budget ih =>
    cases pending : machine.exec with
    | nil =>
      have halted := runFrom_of_halted set context pending taken
      exact ⟨0, Nat.zero_le _, by rw [halted]; rfl, fun _ => by rw [halted, halted]⟩
    | cons atom rest =>
      simp only [runFrom, pending]
      cases executed : set.execute context atom { machine with exec := rest } with
      | ok _ after =>
        obtain ⟨more, within, counted, same⟩ := ih (taken + 1) after
        refine ⟨more + 1, Nat.succ_le_succ within, by simp only [counted]; omega, fun ended => ?_⟩
        simpa only [runFrom, pending, executed] using same ended
      | error cause after => exact ⟨0, Nat.zero_le _, rfl, fun failed => by cases failed⟩

/-- The atoms taken before a run only add to those that it takes. -/
theorem runFrom_eq (taken budget : Nat) (machine : Machine ρ) :
    set.runFrom context taken budget machine =
      let run := set.run context budget machine
      { run with taken := taken + run.taken } := by
  suffices counted : ∀ earlier, set.runFrom context (taken + earlier) budget machine =
      let run := set.runFrom context earlier budget machine
      { run with taken := taken + run.taken } from counted 0
  induction budget generalizing machine with
  | zero => intro earlier; rfl
  | succ budget ih =>
    intro earlier
    cases pending : machine.exec with
    | nil => simp [runFrom_of_halted set context pending]
    | cons atom rest =>
      simp only [runFrom, pending]
      cases set.execute context atom { machine with exec := rest } with
      | ok _ after => exact ih after (earlier + 1)
      | error cause after => rfl

/-- Exactly so many atoms lead from one machine to another, and none of them fails. -/
def Reaches (steps : Nat) (before after : Machine ρ) : Prop :=
  set.run context steps before = ⟨after, steps, none⟩

variable {set context}

theorem Reaches.refl (machine : Machine ρ) : set.Reaches context 0 machine machine := rfl

theorem Reaches.one {before after : Machine ρ} {atom : Atom} {rest : Stack Atom}
    (pending : before.exec = atom :: rest)
    (executed : set.execute context atom { before with exec := rest } = .ok () after) :
    set.Reaches context 1 before after := by
  simp only [Reaches, run, runFrom, pending, executed]

/-- A run with a larger budget passes through a machine that is reached. -/
theorem Reaches.runFrom {steps : Nat} {before middle : Machine ρ}
    (reached : set.Reaches context steps before middle) (taken budget : Nat) :
    set.runFrom context taken (steps + budget) before =
      set.runFrom context (taken + steps) budget middle := by
  rw [runFrom_add, runFrom_eq, reached]
  simp

theorem Reaches.trans {first second : Nat} {before middle after : Machine ρ}
    (start : set.Reaches context first before middle)
    (finish : set.Reaches context second middle after) :
    set.Reaches context (first + second) before after := by
  rw [Reaches, run, start.runFrom, runFrom_eq, finish]
  simp

/-- A machine that is reached is reached by way of those in between. -/
theorem Reaches.split {first second : Nat} {before after : Machine ρ}
    (reached : set.Reaches context (first + second) before after) :
    ∃ middle, set.Reaches context first before middle ∧
      set.Reaches context second middle after := by
  have parts := runFrom_add set context 0 first second before
  obtain ⟨early, withinFirst, countedFirst, -⟩ := exists_runFrom set context 0 first before
  rw [show set.runFrom context 0 (first + second) before = _ from reached] at parts
  generalize started : set.runFrom context 0 first before = start at parts countedFirst
  obtain ⟨middle, taken, failure⟩ := start
  cases failure with
  | some cause => cases parts
  | none =>
    simp only [Option.isSome_none, Bool.false_eq_true, if_false, runFrom_eq set context taken]
      at parts
    obtain ⟨late, withinSecond, countedSecond, -⟩ := exists_runFrom set context 0 second middle
    generalize finished : set.runFrom context 0 second middle = finish at countedSecond
    rw [run, finished] at parts
    obtain ⟨last, more, failure⟩ := finish
    simp only [Run.mk.injEq, Nat.zero_add] at parts countedFirst countedSecond
    obtain ⟨rfl, total, rfl⟩ := parts
    -- Both parts stay within their budgets and make up the whole, so that each spends its own.
    obtain rfl : taken = first := by omega
    obtain rfl : more = second := by omega
    exact ⟨middle, started, finished⟩

theorem Reaches.unique {steps : Nat} {before after other : Machine ρ}
    (reached : set.Reaches context steps before after)
    (again : set.Reaches context steps before other) : after = other :=
  congrArg Run.machine (reached.symm.trans again)

theorem Reaches.cases_one {before after : Machine ρ}
    (reached : set.Reaches context 1 before after) :
    ∃ atom rest, before.exec = atom :: rest ∧
      set.execute context atom { before with exec := rest } = .ok () after := by
  cases pending : before.exec with
  | nil =>
    rw [Reaches, run, runFrom_of_halted set context pending] at reached
    cases reached
  | cons atom rest =>
    refine ⟨atom, rest, rfl, ?_⟩
    cases executed : set.execute context atom { before with exec := rest } with
    | ok _ next =>
      rw [← (Reaches.one pending executed).unique reached]
    | error cause next =>
      simp only [Reaches, run, InstructionSet.runFrom, pending, executed] at reached
      cases reached

theorem Reaches.induction {motive : Machine ρ → Prop} {steps : Nat} {start after : Machine ρ}
    (initial : motive start)
    (step : ∀ taken < steps, ∀ before next, set.Reaches context taken start before →
      set.Reaches context 1 before next → motive before → motive next)
    (reached : set.Reaches context steps start after) : motive after := by
  induction steps generalizing after with
  | zero => exact (Reaches.refl start).unique reached ▸ initial
  | succ steps ih =>
    obtain ⟨before, earlier, last⟩ := reached.split
    exact step steps (Nat.lt_succ_self steps) before after earlier last
      (ih (fun taken within => step taken (Nat.lt_succ_of_lt within)) earlier)

theorem exists_reaches {budget : Nat} {machine : Machine ρ}
    (ended : (set.run context budget machine).failure = none) :
    ∃ steps ≤ budget,
      set.Reaches context steps machine (set.run context budget machine).machine := by
  obtain ⟨steps, within, counted, same⟩ := exists_runFrom set context 0 budget machine
  rw [Nat.zero_add] at counted
  refine ⟨steps, within, ?_⟩
  change set.runFrom context 0 steps machine =
    ⟨(set.runFrom context 0 budget machine).machine, steps, none⟩
  rw [same ended, ← counted, ← ended]
  rfl

theorem Reaches.run_eq {steps budget : Nat} {before after : Machine ρ}
    (reached : set.Reaches context steps before after) (halted : after.exec = [])
    (enough : steps ≤ budget) : set.run context budget before = ⟨after, steps, none⟩ := by
  obtain ⟨more, rfl⟩ := Nat.exists_eq_add_of_le enough
  rw [InstructionSet.run, reached.runFrom, runFrom_of_halted set context halted, Nat.zero_add]

end InstructionSet

namespace Interpreter

/-- The machine of an interpreter reaches another one by some steps, none of which fails. -/
def Reaches (interpreter : Interpreter ρ) (steps : Nat) (machine : Machine ρ) : Prop :=
  interpreter.step steps =
    (.ok steps, { interpreter with machine, totalSteps := interpreter.totalSteps + steps })

theorem reaches_of_machine (interpreter : Interpreter ρ) {steps : Nat} {before after : Machine ρ}
    (reached : interpreter.instructions.Reaches interpreter.context steps before after) :
    { interpreter with machine := before }.Reaches steps after := by
  have ran : interpreter.instructions.run
    { interpreter with machine := before }.context steps before =
      ⟨after, steps, none⟩ := reached
  simp only [Reaches, step, ran]

theorem step_schedule (interpreter : Interpreter ρ) {name : String} {instruction : Instruction ρ}
    {after : Machine ρ} (found : interpreter.instructions.get? name = some instruction)
    (ran : instruction.run interpreter.view interpreter.machine = .ok () after) :
    (interpreter.onMachine (Machine.schedule (.name name))).step 1 =
      (.ok 1, { interpreter with machine := after, totalSteps := interpreter.totalSteps + 1 }) := by
  have executed := (congrFun (InstructionSet.execute_name found interpreter.context)
    interpreter.machine).trans ran
  have reached : interpreter.instructions.Reaches interpreter.context 1
      (interpreter.machine.schedule (.name name)) after :=
    .one rfl executed
  exact interpreter.reaches_of_machine reached

end Interpreter

end PushLang
