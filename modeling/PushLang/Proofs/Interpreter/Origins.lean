import PushLang.Interpreter.Basic

/-! Where atoms come from. What an instruction puts before the atoms still to be executed, or onto
the code stack, it makes from the atoms it finds there, so that properties of atoms which survive
the making hold all along. -/

namespace PushLang

variable {ρ : Type}

section Moves

variable {α : Type}

theorem Stack.swap_perm : (stack : Stack α) → stack.swap.Perm stack
  | [] | [_] => .refl _
  | a :: b :: rest => .swap a b rest

theorem Stack.rot_perm : (stack : Stack α) → stack.rot.Perm stack
  | [] | [_] | [_, _] => .refl _
  | a :: b :: c :: rest =>
    have moved : ([a, b] ++ c :: rest).Perm (c :: ([a, b] ++ rest)) := List.perm_middle
    moved.symm

theorem StackMove.mem_of_mem_apply (op : StackMove) {stack : Stack α} {item : α}
    (member : item ∈ op.apply stack) :
    item ∈ stack := by
  cases op with
  | pop => exact List.mem_of_mem_tail member
  | swap => exact stack.swap_perm.mem_iff.mp member
  | rot => exact stack.rot_perm.mem_iff.mp member
  | flush => cases member
  | dup =>
    cases stack with
    | nil => exact member
    | cons top rest => simpa [apply, Stack.dup] using member

theorem Stack.insertAt_perm (stack : Stack α) (depth : Nat) (item : α) :
    (stack.insertAt depth item).Perm (item :: stack) := by
  have moved : (stack.insertAt depth item).Perm (item :: (stack.take depth ++ stack.drop depth)) :=
    List.perm_middle
  rwa [List.take_append_drop] at moved

theorem Stack.shove_perm (stack : Stack α) (depth : Nat) : (stack.shove depth).Perm stack := by
  cases stack with
  | nil => exact .refl _
  | cons top rest => exact Stack.insertAt_perm rest depth top

theorem Stack.yank_perm (stack : Stack α) (depth : Nat) : (stack.yank depth).Perm stack := by
  unfold Stack.yank Stack.removeAt?
  cases found : stack[stack.clamp depth]? with
  | none => exact .refl _
  | some item =>
    obtain ⟨inside, rfl⟩ := List.getElem?_eq_some_iff.mp found
    have whole : stack.take (stack.clamp depth) ++ stack[stack.clamp depth] ::
        stack.drop (stack.clamp depth + 1) = stack := by
      rw [List.getElem_cons_drop, List.take_append_drop]
    change (stack[stack.clamp depth] :: stack.eraseIdx (stack.clamp depth)).Perm stack
    rw [List.eraseIdx_eq_take_drop_succ]
    exact List.perm_middle.symm.trans (.of_eq whole)

theorem DepthMove.mem_of_mem_apply (op : DepthMove) (depth : Nat) {stack : Stack α} {item : α}
    (member : item ∈ op.apply depth stack) : item ∈ stack := by
  cases op with
  | shove => exact (stack.shove_perm depth).mem_iff.mp member
  | yank => exact (stack.yank_perm depth).mem_iff.mp member
  | yankDup =>
    change item ∈ stack.yankDup depth at member
    unfold Stack.yankDup at member
    split at member
    · rename_i found
      rcases List.mem_cons.mp member with rfl | before
      · exact List.mem_of_getElem? found
      · exact before
    · exact member

end Moves

/-- The property that the atoms of a code stack have, of one for those still to be executed and one
for those kept as code. -/
def CodeStack.property (pending kept : Atom → Prop) : CodeStack → Atom → Prop
  | .code => kept
  | .exec => pending

/-- The properties survive whatever instructions make of atoms. -/
structure Stable (pending kept : Atom → Prop) : Prop where
  boolean : ∀ value, kept (.boolean value)
  integer : ∀ value, kept (.integer value)
  float : ∀ value, kept (.float value)
  scheduled : ∀ atom, kept atom → pending atom
  pair : ∀ first second, pending first → pending second → pending (.program [first, second])
  repeated : ∀ atom, pending atom → pending (.program [.name "exec.y", atom])
  continued : ∀ (stack : CodeStack) next destination body, stack.property pending kept body →
    pending (Machine.continuation stack next destination body)
  withoutIndex : ∀ (stack : CodeStack) body, stack.property pending kept body →
    stack.property pending kept (Machine.withoutIndex body)

namespace Machine

/-- The atoms still to be executed and the atoms kept as code have these properties. -/
structure Holds (pending kept : Atom → Prop) (machine : Machine ρ) : Prop where
  exec : ∀ atom ∈ machine.exec, pending atom
  code : ∀ atom ∈ machine.data.code, kept atom

/-- An instruction leaves the inputs and the stacks of callers alone, and the properties hold after
it. -/
structure Follows (pending kept : Atom → Prop) (machine after : Machine ρ) : Prop where
  holds : after.Holds pending kept
  saved : after.saved = machine.saved
  input : after.input = machine.input

variable {pending kept : Atom → Prop} {machine : Machine ρ}

theorem Holds.codeItems (holds : machine.Holds pending kept) (stack : CodeStack) :
    ∀ atom ∈ machine.codeItems stack, stack.property pending kept atom := by
  cases stack with
  | code => exact holds.code
  | exec => exact holds.exec

theorem Holds.setCodeItems (holds : machine.Holds pending kept) {stack : CodeStack}
    {items : Stack Atom} (items_hold : ∀ atom ∈ items, stack.property pending kept atom) :
    (machine.setCodeItems stack items).Holds pending kept := by
  cases stack with
  | code => exact ⟨holds.exec, items_hold⟩
  | exec => exact ⟨items_hold, holds.code⟩

theorem Holds.schedule (holds : machine.Holds pending kept) {atom : Atom} (own : pending atom) :
    (machine.schedule atom).Holds pending kept :=
      ⟨List.forall_mem_cons.mpr ⟨own, holds.exec⟩, holds.code⟩

/-- Instructions that change typed stacks other than the code stack change nothing that the
properties are about. -/
theorem Holds.of_code_eq (holds : machine.Holds pending kept) {data : Stacks}
    (same : data.code = machine.data.code) :
    { machine with data }.Holds pending kept :=
      ⟨holds.exec, fun atom member => holds.code atom (same ▸ member)⟩

end Machine

section Operations

variable (data : Stacks)

theorem IntegerOp.code_apply (op : IntegerOp) : (op.operation.apply data).code = data.code := by
  cases op <;> (simp only [operation, combine, compare, change, Operation.apply]; split <;> rfl)

theorem FloatOp.code_apply (op : FloatOp) : (op.operation.apply data).code = data.code := by
  cases op <;> (simp only [operation, combine, compare, change, Operation.apply]; split <;> rfl)

theorem BooleanOp.code_apply (op : BooleanOp) : (op.operation.apply data).code = data.code := by
  cases op <;> (simp only [operation, combine, Operation.apply]; split <;> rfl)

end Operations

section Instructions

variable {pending kept : Atom → Prop} (stable : Stable pending kept)

include stable

theorem CodeOp.forall_code_apply (op : CodeOp) {data : Stacks}
    (code : ∀ atom ∈ data.code, kept atom) :
    ∀ atom ∈ (op.operation.apply data).code, kept atom := by
  cases op with
  | fromBoolean =>
    simp only [operation, Operation.apply]
    split
    · exact List.forall_mem_cons.mpr ⟨stable.boolean _, code⟩
    · exact code
  | fromInteger =>
    simp only [operation, Operation.apply]
    split
    · exact List.forall_mem_cons.mpr ⟨stable.integer _, code⟩
    · exact code
  | fromFloat =>
    simp only [operation, Operation.apply]
    split
    · exact List.forall_mem_cons.mpr ⟨stable.float _, code⟩
    · exact code
  | eq =>
    simp only [operation, Operation.apply]
    split
    · rename_i items
      have present : data.code = _ := items
      rw [present] at code
      exact (List.forall_mem_cons.mp (List.forall_mem_cons.mp code).2).2
    · exact code

theorem Stable.pending_of_property {stack : CodeStack} {atom : Atom}
    (own : stack.property pending kept atom) :
    pending atom := by
  cases stack with
  | code => exact stable.scheduled atom own
  | exec => exact own

namespace Machine

variable {machine : Machine ρ} (holds : machine.Holds pending kept)

include holds

theorem choose_follows (stack : CodeStack) :
    machine.Follows pending kept (machine.choose stack) := by
  unfold choose
  split
  · rename_i condition conditions whenTrue whenFalse rest booleans items
    have taken := holds.codeItems stack
    rw [items] at taken
    obtain ⟨first, others⟩ := List.forall_mem_cons.mp taken
    obtain ⟨second, left⟩ := List.forall_mem_cons.mp others
    have own : pending (if condition then whenTrue else whenFalse) := by
      split
      · exact stable.pending_of_property first
      · exact stable.pending_of_property second
    have remaining :
        { machine with data := { machine.data with boolean := conditions } }.Holds pending kept :=
      holds.of_code_eq rfl
    refine ⟨(remaining.setCodeItems left).schedule own, ?_, ?_⟩ <;> cases stack <;> rfl
  · exact ⟨holds, rfl, rfl⟩

theorem loopRange_follows (stack : CodeStack) :
    machine.Follows pending kept (machine.loopRange stack) := by
  unfold loopRange
  split
  · rename_i destination current integers body rest numbers items
    have taken := holds.codeItems stack
    rw [items] at taken
    obtain ⟨own, left⟩ := List.forall_mem_cons.mp taken
    have remaining : { machine with
        data := { machine.data with integer := current :: integers } }.Holds pending kept :=
      holds.of_code_eq rfl
    have taken_body := remaining.setCodeItems left
    cases stepTowards current destination with
    | none =>
      refine ⟨taken_body.schedule (stable.pending_of_property own), ?_, ?_⟩ <;> cases stack <;> rfl
    | some next =>
      have continued := taken_body.schedule (stable.continued stack next destination body own)
      refine ⟨continued.schedule (stable.pending_of_property own), ?_, ?_⟩ <;> cases stack <;> rfl
  · exact ⟨holds, rfl, rfl⟩

theorem loopCount_follows (stack : CodeStack) {body : Atom → Atom}
    (made : ∀ atom, stack.property pending kept atom → stack.property pending kept (body atom)) :
    machine.Follows pending kept (machine.loopCount stack body) := by
  unfold loopCount
  split
  · rename_i count integers item rest numbers items
    have taken := holds.codeItems stack
    rw [items] at taken
    obtain ⟨own, left⟩ := List.forall_mem_cons.mp taken
    split
    · have remaining :
          { machine with data := { machine.data with integer := integers } }.Holds pending kept :=
        holds.of_code_eq rfl
      have continued := stable.continued stack 0 (count - 1) (body item) (made item own)
      refine ⟨(remaining.setCodeItems left).schedule continued, ?_, ?_⟩ <;> cases stack <;> rfl
    · exact ⟨holds, rfl, rfl⟩
  · exact ⟨holds, rfl, rfl⟩

theorem loop_follows (stack : CodeStack) (which : Loop) :
    machine.Follows pending kept (machine.loop stack which) := by
  cases which with
  | range => exact loopRange_follows stable holds stack
  | count => exact loopCount_follows stable holds stack fun _ own => own
  | times => exact loopCount_follows stable holds stack (stable.withoutIndex stack)

theorem combine_follows (config : Config) (which : Combinator) :
    machine.Follows pending kept (machine.combine config which) := by
  have taken := holds.exec
  cases which with
  | k =>
    simp only [combine]
    split
    · rename_i items
      rw [items] at taken
      obtain ⟨first, others⟩ := List.forall_mem_cons.mp taken
      exact ⟨⟨List.forall_mem_cons.mpr ⟨first, (List.forall_mem_cons.mp others).2⟩, holds.code⟩,
        rfl, rfl⟩
    · exact ⟨holds, rfl, rfl⟩
  | s =>
    simp only [combine]
    split
    · rename_i a b c rest items
      rw [items] at taken
      obtain ⟨first, second, third, left⟩ :
          pending a ∧ pending b ∧ pending c ∧ ∀ atom ∈ rest, pending atom := by
        simpa only [List.forall_mem_cons] using taken
      split
      · exact ⟨holds, rfl, rfl⟩
      · refine ⟨⟨?_, holds.code⟩, rfl, rfl⟩
        simpa only [List.forall_mem_cons] using ⟨first, third, stable.pair b c second third, left⟩
    · exact ⟨holds, rfl, rfl⟩
  | y =>
    simp only [combine]
    split
    · rename_i a rest items
      rw [items] at taken
      obtain ⟨first, left⟩ := List.forall_mem_cons.mp taken
      refine ⟨⟨?_, holds.code⟩, rfl, rfl⟩
      simpa only [List.forall_mem_cons] using ⟨first, stable.repeated a first, left⟩
    · exact ⟨holds, rfl, rfl⟩

omit stable

/-- The one instruction that keeps as code what was to be executed. -/
theorem quote_follows (next : ∀ atom ∈ machine.exec.head?, kept atom) :
    machine.Follows pending kept machine.quote := by
  have taken := holds.exec
  unfold quote
  split
  · exact ⟨holds, rfl, rfl⟩
  · rename_i atom rest items
    rw [items] at taken next
    exact ⟨⟨(List.forall_mem_cons.mp taken).2,
      List.forall_mem_cons.mpr ⟨next atom rfl, holds.code⟩⟩, rfl, rfl⟩

theorem compareNext_follows : machine.Follows pending kept machine.compareNext := by
  have taken := holds.exec
  unfold compareNext
  split
  · rename_i items
    rw [items] at taken
    exact ⟨⟨(List.forall_mem_cons.mp (List.forall_mem_cons.mp taken).2).2, holds.code⟩, rfl, rfl⟩
  · exact ⟨holds, rfl, rfl⟩

/-- Moves that make up no items, whatever the items are. -/
theorem onStack_follows (kind : StackKind) {move : {α : Type} → Stack α → Stack α}
    (old : ∀ {α : Type} {stack : Stack α} {item : α}, item ∈ move stack → item ∈ stack) :
    machine.Follows pending kept (machine.onStack kind move) := by
  cases kind with
  | integer | float | boolean | name => exact ⟨⟨holds.exec, holds.code⟩, rfl, rfl⟩
  | code => exact ⟨⟨holds.exec, fun atom member => holds.code atom (old member)⟩, rfl, rfl⟩
  | exec => exact ⟨⟨fun atom member => holds.exec atom (old member), holds.code⟩, rfl, rfl⟩

theorem moveDeep_follows (kind : StackKind) (op : DepthMove) :
    machine.Follows pending kept (machine.moveDeep kind op) := by
  unfold moveDeep
  split
  · exact ⟨holds, rfl, rfl⟩
  · rename_i depth integers numbers
    split
    · exact ⟨holds, rfl, rfl⟩
    · have remaining :
          { machine with data := { machine.data with integer := integers } }.Holds pending kept :=
        holds.of_code_eq rfl
      obtain ⟨moved, saved, input⟩ :=
        onStack_follows remaining kind (op.mem_of_mem_apply depth.toInt.toNat)
      exact ⟨moved, saved, input⟩

/-- Without inputs there is nothing to read but their number. -/
theorem readInput_follows (empty : machine.input = []) (op : InputOp) :
    machine.Follows pending kept (machine.readInput op) := by
  cases op with
  | index | all | allReversed =>
    simp only [readInput, pushIndexedInput, empty, Stack.toBottom, List.reverse_nil, List.foldl_nil]
    exact ⟨holds, rfl, rfl⟩
  | depth => exact ⟨⟨holds.exec, holds.code⟩, rfl, rfl⟩

theorem pushConstant_follows [RandomSource ρ] (config : Config) (kind : ConstantKind) :
    machine.Follows pending kept (machine.pushConstant config kind) := by
  cases kind <;> exact ⟨⟨holds.exec, holds.code⟩, rfl, rfl⟩

end Machine

omit stable in
theorem Environment.pushRandomCode_of_none [RandomSource ρ] (config : Config) (stack : CodeStack)
    (machine : Machine ρ) :
    (⟨config, []⟩ : Environment).pushRandomCode stack machine = .ok () machine := by
  unfold pushRandomCode
  split <;> rfl

/-- Without generators and inputs, a built-in instruction that opens and closes no frame makes atoms
only from those it finds. -/
theorem Builtin.run_follows [RandomSource ρ] {machine : Machine ρ}
    (holds : machine.Holds pending kept) (empty : machine.input = []) {which : Builtin}
    (frameless : ∀ op, which ≠ .frame op)
    (quoted : which = .quote → ∀ atom ∈ machine.exec.head?, kept atom) (config : Config) :
    ∃ after, (which.run ⟨config, []⟩ : Action ρ Unit) machine = .ok () after ∧
      machine.Follows pending kept after := by
  cases which with
  | integer op => exact ⟨_, rfl, holds.of_code_eq (op.code_apply machine.data), rfl, rfl⟩
  | float op => exact ⟨_, rfl, holds.of_code_eq (op.code_apply machine.data), rfl, rfl⟩
  | boolean op => exact ⟨_, rfl, holds.of_code_eq (op.code_apply machine.data), rfl, rfl⟩
  | code op => exact ⟨_, rfl, ⟨holds.exec, CodeOp.forall_code_apply stable op holds.code⟩, rfl, rfl⟩
  | constant kind => exact ⟨_, rfl, Machine.pushConstant_follows holds config kind⟩
  | quote => exact ⟨_, rfl, Machine.quote_follows holds (quoted rfl)⟩
  | noop stack => exact ⟨_, rfl, holds, rfl, rfl⟩
  | choose stack => exact ⟨_, rfl, Machine.choose_follows stable holds stack⟩
  | randomCode stack =>
    exact ⟨machine, Environment.pushRandomCode_of_none config stack machine, holds, rfl, rfl⟩
  | loop stack which => exact ⟨_, rfl, Machine.loop_follows stable holds stack which⟩
  | combinator which => exact ⟨_, rfl, Machine.combine_follows stable holds config which⟩
  | compareNext => exact ⟨_, rfl, Machine.compareNext_follows holds⟩
  | input op => exact ⟨_, rfl, Machine.readInput_follows holds empty op⟩
  | move kind op => exact ⟨_, rfl, Machine.onStack_follows holds kind op.mem_of_mem_apply⟩
  | moveDeep kind op => exact ⟨_, rfl, Machine.moveDeep_follows holds kind op⟩
  | depth kind => exact ⟨_, rfl, ⟨holds.exec, holds.code⟩, rfl, rfl⟩
  | frame op => exact absurd rfl (frameless op)

end Instructions

end PushLang
