import PushLang.Proofs.Interpreter.Framed
import PushLang.Proofs.Interpreter.Tame
import PushLang.Random.Script

/-! Frames are balanced. A frame opens only where a program is replaced by its atoms, and there its
closing is put behind them. So as long as no closing is taken away, each open frame has one to come,
and none is open when nothing is left to execute. -/

namespace PushLang

variable {ρ : Type}

namespace Machine

open Program (closings)

/-- For each open frame there is a closing among the atoms still to be executed, and for one that is
about to open there is one as well. Nothing else opens a frame. -/
inductive Covered (machine : Machine ρ) : Prop where
  | settled (guarded : machine.Guarded Atom.NeverOpens Atom.NeverOpens)
      (covered : machine.frameDepth ≤ closings machine.exec)
  | opening {rest : Stack Atom} (pending : machine.exec = .name FrameOp.push.name :: rest)
      (guarded : { machine with exec := rest }.Guarded Atom.NeverOpens Atom.NeverOpens)
      (covered : machine.frameDepth < closings rest)

/-- Where nothing is left to execute no frame is open, so that the typed stacks are those of the
outermost caller. -/
def IsBalanced (machine : Machine ρ) : Prop :=
  machine.exec = [] → machine.frameDepth = 0 ∧ machine.data = machine.outermost

theorem Covered.isBalanced {machine : Machine ρ} (covered : machine.Covered) :
    machine.IsBalanced := by
  intro halted
  cases covered with
  | settled _ covered =>
    have closed : machine.frameDepth = 0 := by simpa [halted] using covered
    refine ⟨closed, ?_⟩
    rw [outermost, List.length_eq_zero_iff.mp closed]
    rfl
  | opening pending => simp [halted] at pending

/-- What may stand before tame atoms: the opening of a frame, and a loop over the code stack up to
the quotation of its body. -/
inductive IsLead : List Atom → Prop where
  | nil : IsLead []
  | opening {lead : List Atom} (later : IsLead lead) : IsLead (.name FrameOp.push.name :: lead)
  | integer {lead : List Atom} (value : Int32) (later : IsLead lead) :
      IsLead (.integer value :: lead)
  | quoted {body : Atom} (clean : body.IsClean) : IsLead [.name Builtin.quote.name, body]

/-- Only tame atoms are still to be executed once a frame is opened or a loop is started. -/
def Disciplined (machine : Machine ρ) : Prop :=
  ∃ lead rest, machine.exec = lead ++ rest ∧ IsLead lead ∧
    { machine with exec := rest }.Guarded Atom.IsTame Atom.IsClean

theorem Guarded.disciplined {machine : Machine ρ}
    (guarded : machine.Guarded Atom.IsTame Atom.IsClean) : machine.Disciplined :=
  ⟨[], machine.exec, rfl, .nil, guarded⟩

/-- Of a program in a frame nothing gets lost, and a closing is added. -/
theorem closings_unfold_le (body : Program) (rest : Stack Atom) :
    closings (.program body :: rest) ≤
      closings (.name FrameOp.push.name :: (body ++ .name FrameOp.pop.name :: rest)) := by
  simp only [Program.closings_cons, Program.closings_append, Atom.closings_program]
  omega

variable [RandomSource ρ] {set : InstructionSet ρ} {context : Context}
  (framed : set.RunsFramed context) {before after : Machine ρ}

include framed

theorem Covered.step (covered : before.Covered) (reached : set.Reaches context 1 before after)
    (keeps : before.KeepsClosings after) : after.Covered := by
  obtain ⟨atom, rest, pending, executed⟩ := reached.cases_one
  cases covered with
  | opening next guarded covered =>
    obtain ⟨rfl, rfl⟩ := List.cons.inj (pending.symm.trans next)
    rw [framed.execute_frame .push] at executed
    cases executed
    exact .settled guarded.openFrame covered
  | settled guarded covered =>
    obtain ⟨own, others⟩ := List.forall_mem_cons.mp (pending ▸ guarded.exec)
    have left := guarded.withExec others
    obtain ⟨body, rfl⟩ | isLeaf : (∃ body, atom = .program body) ∨ atom.isProgram = false := by
      cases atom <;> simp [Atom.isProgram]
    · rw [framed.execute_program] at executed
      cases executed
      have atoms : ∀ atom ∈ body ++ .name FrameOp.pop.name :: rest, atom.NeverOpens := by
        rw [List.forall_mem_append, List.forall_mem_cons]
        exact ⟨(Atom.lacks_program body).mp own, Atom.lacks_name (by decide), others⟩
      refine .opening rfl (left.withExec atoms) ?_
      rw [pending] at covered
      simp only [frameDepth, Program.closings_cons, Program.closings_append, Atom.closings_program,
        Atom.closings_name, FrameOp.name, if_true] at covered ⊢
      omega
    · have opensNone : atom ≠ .name FrameOp.push.name :=
        (Atom.lacks_leaf isLeaf).mp own (.frame .push) (.head _)
      have quoted : atom = .name Builtin.quote.name → ∀ next ∈ rest.head?, next.NeverOpens :=
        fun _ next first => others next (List.mem_of_mem_head? first)
      obtain ⟨kept, frames⟩ :=
        framed.cases_leaf stable_neverOpens left isLeaf opensNone quoted executed
      refine .settled kept ?_
      rcases frames with ⟨rfl, rfl⟩ | ⟨other, saved⟩
      -- A closing that is executed goes together with its frame, or with none where none is open.
      · rw [pending] at covered
        simp only [frameDepth, Program.closings_cons, Atom.closings_name, FrameOp.name, if_true]
          at covered
        simp only [frameDepth, saved_closeFrame, exec_closeFrame, List.length_tail]
        omega
      · rw [frameDepth, saved]
        exact Nat.le_trans covered (keeps (by simpa [pending] using other))

theorem Guarded.step (guarded : before.Guarded Atom.IsTame Atom.IsClean)
    (reached : set.Reaches context 1 before after) :
    after.Disciplined ∧ before.KeepsClosings after := by
  obtain ⟨atom, rest, pending, executed⟩ := reached.cases_one
  obtain ⟨own, tame⟩ := List.forall_mem_cons.mp (pending ▸ guarded.exec)
  have left := guarded.withExec tame
  have closer : (Atom.name FrameOp.pop.name).IsTame := .leaf rfl (Atom.lacks_name (by decide))
  rw [KeepsClosings, pending]
  cases own with
  | leaf isLeaf lacks =>
    have apart := (Atom.lacks_leaf isLeaf).mp lacks
    have quoted : atom = .name Builtin.quote.name → ∀ next ∈ rest.head?, next.IsClean :=
      fun same => absurd same (apart .quote (by decide))
    obtain ⟨kept, frames⟩ :=
      framed.cases_leaf stable_isTame left isLeaf (apart (.frame .push) (.head _)) quoted executed
    refine ⟨kept.disciplined, fun waiting => ?_⟩
    rcases frames with ⟨closing, -⟩ | ⟨other, -⟩
    · exact absurd (congrArg some closing) waiting
    · rw [Program.closings_cons, Atom.closings_leaf isLeaf, if_neg other, Nat.zero_add]
      exact framed.closings_leaf isLeaf (fun which member => apart which (.tail _ member)) executed
  | @program body atoms =>
    rw [framed.execute_program] at executed
    cases executed
    have inside : ∀ atom ∈ body ++ .name FrameOp.pop.name :: rest, atom.IsTame := by
      rw [List.forall_mem_append, List.forall_mem_cons]
      exact ⟨atoms, closer, tame⟩
    exact ⟨⟨[.name FrameOp.push.name], _, rfl, .opening .nil, left.withExec inside⟩,
      fun _ => closings_unfold_le body rest⟩
  | @continued body index destination clean =>
    change set.execute context (.program _) _ = _ at executed
    rw [framed.execute_program] at executed
    cases executed
    -- The body of the loop is not executed but quoted, so that only what is behind it has to be
    -- tame.
    have behind :
        ∀ atom ∈ .name "code.do*range" :: .name FrameOp.pop.name :: rest, atom.IsTame := by
      simp only [List.forall_mem_cons]
      exact ⟨.leaf rfl (Atom.lacks_name (by decide)), closer, tame⟩
    have isLead : IsLead [.name FrameOp.push.name, .integer index, .integer destination,
        .name Builtin.quote.name, body] :=
      .opening (.integer index (.integer destination (.quoted clean)))
    exact ⟨⟨_, _, rfl, isLead, left.withExec behind⟩, fun _ => closings_unfold_le _ rest⟩

theorem Disciplined.step (disciplined : before.Disciplined)
    (reached : set.Reaches context 1 before after) :
    after.Disciplined ∧ before.KeepsClosings after := by
  obtain ⟨lead, rest, pending, isLead, guarded⟩ := disciplined
  cases isLead with
  | nil =>
    obtain rfl : before.exec = rest := pending
    exact Guarded.step framed guarded reached
  | opening later =>
    obtain ⟨atom, others, next, executed⟩ := reached.cases_one
    obtain ⟨rfl, rfl⟩ := List.cons.inj (next.symm.trans pending)
    rw [framed.execute_frame .push] at executed
    cases executed
    refine ⟨⟨_, rest, rfl, later, guarded.openFrame⟩, fun _ => ?_⟩
    simp [next, Machine.openFrame, FrameOp.name]
  | integer value later =>
    obtain ⟨atom, others, next, executed⟩ := reached.cases_one
    obtain ⟨rfl, rfl⟩ := List.cons.inj (next.symm.trans pending)
    cases executed
    refine ⟨⟨_, rest, rfl, later, guarded.push (.integer value) rfl⟩, fun _ => ?_⟩
    simp [next, Machine.push]
  | @quoted body clean =>
    obtain ⟨atom, others, next, executed⟩ := reached.cases_one
    obtain ⟨rfl, rfl⟩ := List.cons.inj (next.symm.trans pending)
    rw [InstructionSet.execute_builtin framed.builtins.all .quote] at executed
    cases executed
    have code : ∀ atom ∈ body :: before.data.code, atom.IsClean :=
      List.forall_mem_cons.mpr ⟨clean, guarded.code⟩
    have quoted : { before with
        exec := rest
        data := { before.data with code := body :: before.data.code } }.Guarded
          Atom.IsTame Atom.IsClean := ⟨⟨guarded.exec, code⟩, guarded.callers, guarded.input⟩
    refine ⟨quoted.disciplined, fun _ => ?_⟩
    simp [next, Machine.quote, clean.closings_eq_zero, Builtin.name]

end Machine

theorem Machine.guarded_load_clear {pending kept : Atom → Prop} (machine : Machine ρ)
    {program : Program} (ready : pending (.program program)) (own : kept (.program program)) :
    (machine.clear.load program).Guarded pending kept where
  exec := List.forall_mem_cons.mpr ⟨ready, by simp [clear]⟩
  code := List.forall_mem_cons.mpr ⟨own, by simp [clear, Stacks.clear]⟩
  callers := by simp [load, clear]
  input := rfl

variable [RandomSource ρ]

namespace InstructionSet

/-- None of the steps within a budget takes the closing of a frame away. -/
def KeepsClosings (set : InstructionSet ρ) (context : Context) (budget : Nat) (start : Machine ρ) :
    Prop :=
  ∀ taken < budget, ∀ before after, set.Reaches context taken start before →
    set.Reaches context 1 before after →
    before.KeepsClosings after

variable {set : InstructionSet ρ} {context : Context}

theorem RunsFramed.covered_run (framed : set.RunsFramed context) {start : Machine ρ}
    (covered : start.Covered) {budget : Nat} (keeps : set.KeepsClosings context budget start) :
    (set.run context budget start).machine.Covered := by
  obtain ⟨_, after, _, _, ran, _⟩ :=
    Checked.runFrom_eq context framed.builtins.isStandard 0 budget start
  have ended : (set.run context budget start).failure = none := by rw [run, ran]
  obtain ⟨steps, within, reached⟩ := exists_reaches ended
  -- Nothing is taken after the end of a run, which may come before its budget is spent.
  refine reached.induction covered fun taken earlier before next path last held => ?_
  exact held.step framed last (keeps taken
    (Nat.lt_of_lt_of_le earlier within) before next path last)

theorem RunsFramed.keepsClosings (framed : set.RunsFramed context) {start : Machine ρ}
    (disciplined : start.Disciplined) (budget : Nat) : set.KeepsClosings context budget start := by
  intro taken _ before after path last
  have held : before.Disciplined :=
    path.induction disciplined fun _ _ _ _ _ step held => (held.step framed step).1
  exact (held.step framed last).2

end InstructionSet

/-- A program that makes an instruction take the closing of its frame away. -/
def Builtin.discarded (which : Builtin) : Program :=
  match which with
  | .combinator _ | .compareNext => [.name which.name, .integer 1]
  | .choose _ => [.boolean true, .name which.name, .integer 1]
  | _ => [.name which.name]

/-- The program has no markers and no other instruction that can discard atoms. -/
theorem Builtin.leaves_discarded : ∀ which ∈ Builtin.discarding,
    (∀ op ∈ FrameOp.all, .name op.name ∉ which.discarded.leaves) ∧
      ∀ other ∈ Builtin.discarding, .name other.name ∈ which.discarded.leaves → other = which := by
        decide

namespace Interpreter

theorem machine_execute (interpreter : Interpreter ρ) (program : Program) (budget : Nat) :
    (interpreter.execute program budget).2.machine =
      (interpreter.instructions.run (interpreter.start program).context budget
        (interpreter.start program).machine).machine := by
  simp only [execute, step]
  split <;> rfl

/-- A program without markers of its own leaves no frame open where nothing is left to execute, as
long as no step takes the closing of a frame away. That never happens where it names none of the
instructions that can discard atoms. -/
theorem frames_balance (interpreter : Interpreter ρ)
    (framed : interpreter.instructions.RunsFramed interpreter.config) (program : Program)
    (unmarked : ∀ op : FrameOp, .name op.name ∉ program.leaves) :
    let set := interpreter.instructions
    let cleared := interpreter.onMachine Machine.clear
    let start := cleared.start program
    (∀ budget, set.KeepsClosings start.context budget start.machine →
      (cleared.execute program budget).2.machine.IsBalanced) ∧
    ((∀ which ∈ Builtin.discarding, .name which.name ∉ program.leaves) → ∀ budget,
      set.KeepsClosings start.context budget start.machine ∧
        (cleared.execute program budget).2.machine.IsBalanced) := by
  intro set cleared start
  have framed : set.RunsFramed start.context := framed
  have noMarkers : ∀ leaf ∈ program.leaves, ∀ op : FrameOp, leaf ≠ .name op.name :=
      fun leaf member op same =>
    unmarked op (same ▸ member)
  have balances (budget : Nat) (keeps : set.KeepsClosings start.context budget start.machine) :
      (cleared.execute program budget).2.machine.IsBalanced := by
    have own : (Atom.program program).NeverOpens := by
      refine (Atom.lacks_program program).mpr
        ((Program.forall_lacks program).mpr fun leaf member which named => ?_)
      rw [List.mem_singleton.mp named]
      exact noMarkers leaf member .push
    have covered : start.machine.Covered :=
      .settled (interpreter.machine.guarded_load_clear own own) (Nat.zero_le _)
    rw [machine_execute]
    exact (framed.covered_run covered keeps).isBalanced
  refine ⟨balances, fun harmless budget => ?_⟩
  have clean : (Atom.program program).IsClean := by
    refine (Atom.lacks_program program).mpr
      ((Program.forall_lacks program).mpr fun leaf member which named => ?_)
    rcases List.mem_cons.mp named with rfl | named
    · exact noMarkers leaf member .push
    rcases List.mem_cons.mp named with rfl | discards
    · exact noMarkers leaf member .pop
    · exact fun same => harmless which discards (same ▸ member)
  have disciplined : start.machine.Disciplined :=
    (interpreter.machine.guarded_load_clear clean.isTame clean).disciplined
  have keeps := framed.keepsClosings disciplined budget
  exact ⟨keeps, balances budget keeps⟩

/-- The cleared machine of an interpreter inside the frame of a program. -/
def inFrame (interpreter : Interpreter ρ) (program : Program) : Machine ρ :=
  { interpreter.machine.clear.load program with
    exec := program ++ [Atom.name FrameOp.pop.name] }.openFrame

section

variable {interpreter : Interpreter ρ}
  (framed : interpreter.instructions.RunsFramed interpreter.config)

include framed

/-- A program leaves open what its atoms, executed in its frame, leave open. -/
theorem frameDepth_of_reaches {program : Program} {steps depth : Nat} {after : Machine ρ}
    (reached : interpreter.instructions.Reaches (interpreter.start program).context steps
      (interpreter.inFrame program) after)
    (halted : after.exec = []) (left : after.frameDepth = depth) {budget : Nat}
    (enough : 2 + steps ≤ budget) :
    let machine := ((interpreter.onMachine Machine.clear).execute program budget).2.machine
    machine.exec = [] ∧ machine.frameDepth = depth := by
  have ran := ((framed.reaches_program rfl).trans reached).run_eq halted enough
  simp only [machine_execute]
  exact ⟨(congrArg (Machine.exec ∘ Run.machine) ran).trans halted,
    (congrArg (Machine.frameDepth ∘ Run.machine) ran).trans left⟩

private theorem copied_halts {program : Program}
    (copies : program = [.program [.integer 1, .name "exec.dup"], .integer 2]) :
    ((interpreter.onMachine Machine.clear).execute program 20).2.machine.exec = [] := by
  have builtins := framed.builtins.all
  have close {before : Machine ρ} {rest : Stack Atom}
    (pending : before.exec = .name FrameOp.pop.name :: rest) :
      interpreter.instructions.Reaches (interpreter.start program).context 1 before
        { before with exec := rest }.closeFrame :=
    .one pending (framed.execute_frame .pop _)
  subst copies
  have copied : interpreter.instructions.Reaches
      (interpreter.start [.program [.integer 1, .name "exec.dup"], .integer 2]).context 4
      (interpreter.inFrame [.program [.integer 1, .name "exec.dup"], .integer 2]) _ :=
    .trans (.trans (framed.reaches_program rfl) (.one rfl rfl))
      (builtins.reaches (.move .exec .dup) rfl rfl)
  have closed := ((copied.trans (close rfl)).trans (close rfl)).trans (.one rfl rfl)
  exact (frameDepth_of_reaches framed (closed.trans (close rfl)) rfl rfl (by decide)).1

/-- Each of the instructions that can discard atoms leaves the frame of its program open, on
whatever machine. -/
theorem frameDepth_discarded (which : Builtin) (discards : which ∈ Builtin.discarding)
    {program : Program} (own : program = which.discarded) {budget : Nat} (enough : 5 ≤ budget) :
    let machine := ((interpreter.onMachine Machine.clear).execute program budget).2.machine
    machine.exec = [] ∧ machine.frameDepth = 1 := by
  subst own
  suffices inside : ∃ steps ≤ 3, ∃ after,
      interpreter.instructions.Reaches (interpreter.start which.discarded).context steps
          (interpreter.inFrame which.discarded) after ∧
        after.exec = [] ∧ after.frameDepth = 1 by
    obtain ⟨steps, few, after, reached, halted, left⟩ := inside
    exact frameDepth_of_reaches framed reached halted left (by omega)
  have builtins := framed.builtins.all
  simp only [Builtin.discarding, List.mem_cons, List.not_mem_nil, or_false] at discards
  rcases discards with rfl | rfl | rfl | rfl | rfl | rfl
  · exact ⟨1, by omega, _, builtins.reaches (.move .exec .pop) rfl rfl, rfl, rfl⟩
  · exact ⟨1, by omega, _, builtins.reaches (.move .exec .flush) rfl rfl, rfl, rfl⟩
  · exact ⟨2, by omega, _,
      .trans (builtins.reaches (.combinator .k) rfl rfl) (.one rfl rfl), rfl, rfl⟩
  · exact ⟨1, by omega, _, builtins.reaches .compareNext rfl rfl, rfl, rfl⟩
  · exact ⟨3, by omega, _,
      .trans (.trans (.one rfl rfl) (builtins.reaches (.choose .exec) rfl rfl)) (.one rfl rfl),
      rfl, rfl⟩
  · exact ⟨1, by omega, _, builtins.reaches .quote rfl rfl, rfl, rfl⟩

end

/-- A nested program that copies the closing of its frame. -/
theorem frames_balance_copied :
    let config : Config := { frameMode := true }
    let interpreter := Interpreter.new config ({} : Script)
    let program : Program := [.program [.integer 1, .name "exec.dup"], .integer 2]
    interpreter.instructions.RunsFramed interpreter.config ∧
      (∀ op : FrameOp, .name op.name ∉ program.leaves) ∧
      (∀ which ∈ Builtin.discarding, .name which.name ∉ program.leaves) ∧
      let machine := ((interpreter.onMachine Machine.clear).execute program 20).2.machine
      machine.exec = [] ∧ machine.frameDepth = 0 := by
  intro config interpreter program
  have framed : interpreter.instructions.RunsFramed interpreter.config :=
    InstructionSet.runsFramed_standard rfl
  have unmarked : ∀ op : FrameOp, .name op.name ∉ program.leaves := by
    intro op
    cases op <;> decide
  have harmless : ∀ which ∈ Builtin.discarding, .name which.name ∉ program.leaves := by decide
  have copies : program = [.program [.integer 1, .name "exec.dup"], .integer 2] := rfl
  have halted := copied_halts framed copies
  have balanced := ((frames_balance interpreter framed program unmarked).2 harmless 20).2
  exact ⟨framed, unmarked, harmless, halted, (balanced halted).1⟩

/-- A program that takes the closing of its frame away leaves the frame open. -/
theorem frames_left_open :
    let config : Config := { frameMode := true }
    let interpreter := Interpreter.new config ({} : Script)
    let program : Program := [.name "exec.pop"]
    interpreter.instructions.RunsFramed interpreter.config ∧
      (∀ op : FrameOp, .name op.name ∉ program.leaves) ∧
      let machine := ((interpreter.onMachine Machine.clear).execute program 200).2.machine
      machine.exec = [] ∧ machine.frameDepth = 1 := by
  intro config interpreter program
  have framed : interpreter.instructions.RunsFramed interpreter.config :=
    InstructionSet.runsFramed_standard rfl
  have unmarked (op : FrameOp) : .name op.name ∉ program.leaves :=
    (Builtin.leaves_discarded (.move .exec .pop) (.head _)).1 op (by cases op <;> decide)
  have own : program = (Builtin.move .exec .pop).discarded := rfl
  have opened := frameDepth_discarded framed (.move .exec .pop) (.head _) own (by decide : 5 ≤ 200)
  exact ⟨framed, unmarked, opened⟩

end Interpreter

end PushLang
