import PushLang.Builtin.Effect
import PushLang.Proofs.Safety.Checked

namespace PushLang.Checked

variable {ρ α : Type}

/-- The name of a stack in the error of a pop. -/
def label : StackOf α → String
  | .integer => "integer"
  | .float => "float"
  | .boolean => "boolean"
  | .code => "code"

def take (source : StackOf α) : Checked (Machine ρ) α := fun machine =>
  match (source.items machine.data).pop (label source) with
  | .ok (item, rest) => .ok item { machine with data := source.setItems rest machine.data }
  | .error cause => .error (.error cause) machine

def takeCode (stack : CodeStack) : Checked (Machine ρ) Atom := fun machine =>
  match (machine.codeItems stack).pop stack.label with
  | .ok (item, rest) => .ok item (machine.setCodeItems stack rest)
  | .error cause => .error (.error cause) machine

def push (target : StackOf α) (item : α) : Checked (Machine ρ) Unit :=
  modify fun machine => { machine with data := target.push item machine.data }

def schedule (atom : Atom) : Checked (Machine ρ) Unit := modify (Machine.schedule atom)

/-- The atom at a depth among those still to be executed, if there is one. -/
def look (depth : Nat) : Checked (Machine ρ) (Option Atom) := fun machine =>
  match machine.exec.peek depth with
  | .ok atom => .ok atom machine
  | .error fault => .error (.fault fault) machine

def operate : Operation → Checked (Machine ρ) Unit
  | .unary source target result => do
    if (source.items (← get).data).isEmpty then pure ()
    else do
      let value ← take source
      push target (result value)
  | .binary source target result => do
    if (source.items (← get).data).length < 2 then pure ()
    else do
      let top ← take source
      let second ← take source
      push target (result second top)

def choose (stack : CodeStack) : Checked (Machine ρ) Unit := do
  let machine ← get
  if machine.data.boolean.isEmpty ∨ (machine.codeItems stack).length < 2 then pure ()
  else do
    let condition ← take .boolean
    let whenTrue ← takeCode stack
    let whenFalse ← takeCode stack
    schedule (if condition then whenTrue else whenFalse)

def quote : Checked (Machine ρ) Unit := do
  if (← get).exec.isEmpty then pure ()
  else do
    let atom ← takeCode .exec
    push .code atom

def compareNext : Checked (Machine ρ) Unit := do
  if (← get).exec.length < 2 then pure ()
  else do
    let top ← takeCode .exec
    let second ← takeCode .exec
    push .boolean (decide (second = top))

/-- One step from an integer towards another, unless they are equal. -/
def advance (current destination : Int32) : Checked (Machine ρ) (Option Int32) :=
  if current < destination then some <$> addInteger current 1
  else if destination < current then some <$> subtractInteger current 1
  else pure none

def loopRange (stack : CodeStack) : Checked (Machine ρ) Unit := do
  let machine ← get
  if machine.data.integer.length < 2 ∨ (machine.codeItems stack).isEmpty then pure ()
  else do
    let body ← takeCode stack
    let destination ← take .integer
    let current ← take .integer
    let next ← advance current destination
    push .integer current
    match next with
    | some next => schedule (Machine.continuation stack next destination body)
    | none => pure ()
    schedule body

def loopCount (stack : CodeStack) (body : Atom → Atom) : Checked (Machine ρ) Unit := do
  let machine ← get
  match machine.data.integer.top? with
  | none => pure ()
  | some count =>
    if 0 < count ∧ ¬ (machine.codeItems stack).isEmpty then do
      let _ ← take .integer
      let item ← takeCode stack
      let last ← subtractInteger count 1
      schedule (Machine.continuation stack 0 last (body item))
    else pure ()

def loop (stack : CodeStack) : Loop → Checked (Machine ρ) Unit
  | .range => loopRange stack
  | .count => loopCount stack id
  | .times => loopCount stack Machine.withoutIndex

def combine (config : Config) : Combinator → Checked (Machine ρ) Unit
  | .k => do
    if (← get).exec.length < 2 then pure ()
    else do
      let kept ← takeCode .exec
      let _ ← takeCode .exec
      schedule kept
  | .s => do
    match ← look 1, ← look 2 with
    | some b, some c =>
      if config.maxPoints < b.points + c.points then pure ()
      else do
        let a ← takeCode .exec
        let b ← takeCode .exec
        let c ← takeCode .exec
        schedule (.program [b, c])
        schedule c
        schedule a
    | _, _ => pure ()
  | .y => do
    if (← get).exec.isEmpty then pure ()
    else do
      let body ← takeCode .exec
      schedule (.program [.name "exec.y", body])
      schedule body

theorem take_eq (source : StackOf α) {machine : Machine ρ} {item : α} {rest : Stack α}
    (held : source.items machine.data = item :: rest) :
    take source machine = .ok item { machine with data := source.setItems rest machine.data } := by
  simp only [take, held, Stack.pop]

theorem takeCode_eq {stack : CodeStack} {machine : Machine ρ} {item : Atom} {rest : Stack Atom}
    (held : machine.codeItems stack = item :: rest) :
    takeCode stack machine = .ok item (machine.setCodeItems stack rest) := by
  simp only [takeCode, held, Stack.pop]

theorem items_take (source : StackOf α) (rest : Stack α) (machine : Machine ρ) :
    source.items { machine with data := source.setItems rest machine.data }.data = rest := by
  cases source <;> rfl

theorem integer_setCodeItems (machine : Machine ρ) (stack : CodeStack) (items : Stack Atom) :
    (machine.setCodeItems stack items).data.integer = machine.data.integer := by
  cases stack <;> rfl

theorem codeItems_take_integer (machine : Machine ρ) (stack : CodeStack) (integers : Stack Int32) :
    { machine with data := StackOf.integer.setItems integers machine.data }.codeItems stack =
      machine.codeItems stack := by
  cases stack <;> rfl

theorem operate_eq (operation : Operation) (machine : Machine ρ) :
    operate operation machine = .ok () (machine.operate operation) := by
  cases operation with
  | unary source target result =>
    cases held : source.items machine.data with
    | nil => simp [operate, Machine.operate, Operation.apply, held]
    | cons value rest =>
      simp [operate, Machine.operate, Operation.apply, held, take_eq source held, push]
  | binary source target result =>
    match held : source.items machine.data with
    | [] | [_] => simp [operate, Machine.operate, Operation.apply, held]
    | top :: second :: rest =>
      have left := take_eq source (items_take source (second :: rest) machine)
      simp +arith only [operate, Machine.operate, Operation.apply, held, bind_apply, get_apply,
        List.length_cons, if_false, take_eq source held, left, push, modify_apply]
      cases source <;> rfl

theorem choose_eq (stack : CodeStack) (machine : Machine ρ) :
    choose stack machine = .ok () (machine.choose stack) := by
  obtain ⟨exec, input, ⟨integer, float, boolean, name, code⟩, saved, custom, random⟩ := machine
  cases stack with
  | code =>
    match boolean, code with
    | [], _ | _ :: _, [] | _ :: _, [_] | _ :: _, _ :: _ :: _ => rfl
  | exec =>
    match boolean, exec with
    | [], _ | _ :: _, [] | _ :: _, [_] | _ :: _, _ :: _ :: _ => rfl

theorem quote_eq (machine : Machine ρ) : quote machine = .ok () machine.quote := by
  obtain ⟨exec, input, data, saved, custom, random⟩ := machine
  cases exec with
  | nil | cons => rfl

theorem compareNext_eq (machine : Machine ρ) :
    compareNext machine = .ok () machine.compareNext := by
  obtain ⟨exec, input, data, saved, custom, random⟩ := machine
  match exec with
  | [] | [_] | _ :: _ :: _ => rfl

/-- A step towards another integer stays within the range of integers. -/
theorem advance_eq (current destination : Int32) :
    (advance current destination : Checked (Machine ρ) (Option Int32)) =
      pure (Machine.stepTowards current destination) := by
  have least := destination.le_toInt
  have most := destination.toInt_lt
  have one : (1 : Int32).toInt = 1 := rfl
  unfold advance Machine.stepTowards
  by_cases below : current < destination
  · have ordered := Int32.lt_iff_toInt_lt.mp below
    have low := current.le_toInt
    rw [if_pos below, if_pos below, addInteger_eq (by omega) (by omega)]
    rfl
  · rw [if_neg below, if_neg below]
    by_cases above : destination < current
    · have ordered := Int32.lt_iff_toInt_lt.mp above
      have high := current.toInt_lt
      rw [if_pos above, if_pos above, subtractInteger_eq (by omega) (by omega)]
      rfl
    · rw [if_neg above, if_neg above]

theorem loopRange_eq (stack : CodeStack) (machine : Machine ρ) :
    loopRange stack machine = .ok () (machine.loopRange stack) := by
  match integers : machine.data.integer, items : machine.codeItems stack with
  | [], _ | [_], _ | _ :: _ :: _, [] => simp [loopRange, Machine.loopRange, integers, items]
  | destination :: current :: others, body :: rest =>
    have popped := takeCode_eq items
    have upper := take_eq .integer ((integer_setCodeItems machine stack rest).trans integers)
    have lower := take_eq .integer (items_take .integer (current :: others)
      (machine.setCodeItems stack rest))
    simp +arith only [loopRange, Machine.loopRange, integers, items, bind_apply, get_apply,
      List.length_cons, List.isEmpty_cons, Bool.false_eq_true, or_self, if_false, popped, upper,
      lower, advance_eq, pure_apply, push, modify_apply]
    cases Machine.stepTowards current destination with
    | none | some => cases stack <;> rfl

theorem loopCount_eq (stack : CodeStack) (body : Atom → Atom) (machine : Machine ρ) :
    loopCount stack body machine = .ok () (machine.loopCount stack body) := by
  match integers : machine.data.integer, items : machine.codeItems stack with
  | [], _ => simp [loopCount, Machine.loopCount, Stack.top?, integers]
  | count :: others, [] => simp [loopCount, Machine.loopCount, Stack.top?, integers, items]
  | count :: others, item :: rest =>
    by_cases positive : 0 < count
    · have natural : 0 < count.toInt := Int32.lt_iff_toInt_lt.mp positive
      have high := count.toInt_lt
      have one : (1 : Int32).toInt = 1 := rfl
      have least : (subtractInteger count 1 : Checked (Machine ρ) Int32) = pure (count - 1) :=
        subtractInteger_eq (by omega) (by omega)
      have counted := take_eq .integer integers
      have popped := takeCode_eq ((codeItems_take_integer machine stack others).trans items)
      simp only [loopCount, Machine.loopCount, Stack.top?, integers, items, bind_apply, get_apply,
        List.head?_cons, List.isEmpty_cons, Bool.false_eq_true, not_false_eq_true, and_true,
        positive, if_true, counted, popped, least, pure_apply]
      cases stack <;> rfl
    · simp [loopCount, Machine.loopCount, Stack.top?, integers, items, positive]

theorem loop_eq (stack : CodeStack) (which : Loop) (machine : Machine ρ) :
    loop stack which machine = .ok () (machine.loop stack which) := by
  cases which with
  | range => exact loopRange_eq stack machine
  | count => exact loopCount_eq stack id machine
  | times => exact loopCount_eq stack Machine.withoutIndex machine

theorem combine_eq (config : Config) (which : Combinator) (machine : Machine ρ) :
    combine config which machine = .ok () (machine.combine config which) := by
  obtain ⟨exec, input, data, saved, custom, random⟩ := machine
  cases which with
  | k =>
    match exec with
    | [] | [_] | _ :: _ :: _ => rfl
  | s =>
    match exec with
    | [] | [_] | [_, _] => rfl
    | a :: b :: c :: rest =>
      by_cases large : config.maxPoints < b.points + c.points
      · simp [combine, look, Stack.peek, UInt64.size, Machine.combine, large]
      · simp [combine, look, Stack.peek, UInt64.size, Machine.combine, large]
        rfl
  | y =>
    cases exec with
    | nil | cons => rfl

end PushLang.Checked
