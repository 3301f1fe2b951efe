import PushLang.Proofs.Safety.Checked
import PushLang.Stack

namespace PushLang.Checked

variable {σ α : Type}

def itemAt (stack : Stack α) (position : Nat) : Checked σ α :=
  match stack.get? position with
  | some item => pure item
  | none => throw (.fault .outOfRange)

/-- The item at a position and the stack without it. -/
def removeItem (stack : Stack α) (position : Nat) : Checked σ (α × Stack α) := do
  let item ← itemAt stack position
  return (item, stack.eraseIdx (stack.length - 1 - position))

/-- The stack with an item put in at a position, which may be one past the top. -/
def insertItem (stack : Stack α) (position : Nat) (item : α) : Checked σ (Stack α) :=
  if position ≤ stack.length then pure (stack.insertAt (stack.length - position) item)
  else throw (.fault .outOfRange)

def swap (stack : Stack α) : Checked σ (Stack α) :=
  if 1 < stack.length then do
    let top ← itemAt stack (← subtract stack.length 1)
    let second ← itemAt stack (← subtract stack.length 2)
    return second :: top :: stack.drop 2
  else pure stack

def rot (stack : Stack α) : Checked σ (Stack α) :=
  if 2 < stack.length then do
    let (third, rest) ← removeItem stack (← subtract stack.length 3)
    return third :: rest
  else pure stack

/-- The stack with an item put in at a depth, which may be as large as the stack. -/
def insertAt (stack : Stack α) (depth : Nat) (item : α) : Checked σ (Stack α) := do
  insertItem stack (← subtract stack.length (min depth stack.length)) item

def shove (stack : Stack α) (depth : Nat) : Checked σ (Stack α) :=
  match stack with
  | [] => pure []
  | top :: rest => do insertItem rest (← subtract rest.length (min depth rest.length)) top

/-- The position at a depth kept within the stack. -/
def positionAt (stack : Stack α) (depth : Nat) : Checked σ Nat := do
  let last ← subtract stack.length 1
  subtract last (min depth last)

/-- The item at a depth kept within the stack and the stack without it, if there is an item at
all. -/
def removeAt (stack : Stack α) (depth : Nat) : Checked σ (Option (α × Stack α)) :=
  if stack.length = 0 then pure none
  else do
    let removed ← removeItem stack (← positionAt stack depth)
    return some removed

def yank (stack : Stack α) (depth : Nat) : Checked σ (Stack α) :=
  if stack.length = 0 then pure stack
  else do
    let (item, rest) ← removeItem stack (← positionAt stack depth)
    return item :: rest

def yankDup (stack : Stack α) (depth : Nat) : Checked σ (Stack α) :=
  if 0 < stack.length then do
    let item ← itemAt stack (← positionAt stack depth)
    return item :: stack
  else pure stack

def move : StackMove → Stack α → Checked σ (Stack α)
  | .pop, stack => pure stack.tail
  | .swap, stack => swap stack
  | .rot, stack => rot stack
  | .flush, _ => pure []
  | .dup, stack => pure stack.dup

def moveDeep : DepthMove → Nat → Stack α → Checked σ (Stack α)
  | .shove, depth, stack => shove stack depth
  | .yank, depth, stack => yank stack depth
  | .yankDup, depth, stack => yankDup stack depth

theorem itemAt_eq {stack : Stack α} (depth : Nat) {position : Nat} {item : α}
    (held : stack[depth]? = some item) (counted : position = stack.length - 1 - depth) :
    (itemAt stack position : Checked σ α) = pure item := by
  obtain ⟨inside, -⟩ := List.getElem?_eq_some_iff.mp held
  have found : stack.get? position = some item := by
    rw [Stack.get?, if_pos (by omega), ← held]
    congr 1
    omega
  simp only [itemAt, found]

theorem removeItem_eq {stack : Stack α} (depth : Nat) {position : Nat} {item : α}
    (held : stack[depth]? = some item) (counted : position = stack.length - 1 - depth) :
    (removeItem stack position : Checked σ (α × Stack α)) = pure (item, stack.eraseIdx depth) := by
  obtain ⟨inside, -⟩ := List.getElem?_eq_some_iff.mp held
  rw [removeItem, itemAt_eq _ held counted, pure_bind,
    show stack.length - 1 - position = depth by omega]

theorem positionAt_eq {stack : Stack α} (present : stack ≠ []) (depth : Nat) :
    (positionAt stack depth : Checked σ Nat) = pure (stack.length - 1 - stack.clamp depth) := by
  have positive : 1 ≤ stack.length := List.length_pos_iff.mpr present
  simp only [positionAt, subtract_eq positive, pure_bind, subtract_eq (Nat.min_le_right _ _),
    Stack.clamp]

theorem exists_clamp {stack : Stack α} (present : stack ≠ []) (depth : Nat) :
    ∃ item, stack[stack.clamp depth]? = some item := by
  have positive : 0 < stack.length := List.length_pos_iff.mpr present
  have inside : stack.clamp depth < stack.length := by
    unfold Stack.clamp
    omega
  exact ⟨_, List.getElem?_eq_getElem inside⟩

theorem swap_eq (stack : Stack α) : (swap stack : Checked σ (Stack α)) = pure stack.swap := by
  match stack with
  | [] | [_] => rfl
  | a :: b :: rest =>
    have deep : 1 < (a :: b :: rest).length := Nat.succ_lt_succ (Nat.succ_pos _)
    rw [swap, if_pos deep, subtract_eq (Nat.le_of_lt deep), pure_bind, itemAt_eq 0 rfl (by omega),
      pure_bind, subtract_eq deep, pure_bind, itemAt_eq 1 rfl (by omega), pure_bind]
    rfl

theorem rot_eq (stack : Stack α) : (rot stack : Checked σ (Stack α)) = pure stack.rot := by
  match stack with
  | [] | [_] | [_, _] => rfl
  | a :: b :: c :: rest =>
    have deep : 2 < (a :: b :: c :: rest).length :=
      Nat.succ_lt_succ (Nat.succ_lt_succ (Nat.succ_pos _))
    rw [rot, if_pos deep, subtract_eq deep, pure_bind, removeItem_eq 2 rfl (by omega), pure_bind]
    rfl

/-- A depth beyond the bottom is as good as the bottom. -/
theorem insertAt_min (stack : Stack α) (depth : Nat) (item : α) :
    stack.insertAt (min depth stack.length) item = stack.insertAt depth item := by
  rcases Nat.le_total depth stack.length with within | beyond
  · rw [Nat.min_eq_left within]
  · simp only [Stack.insertAt, Nat.min_eq_right beyond, List.take_length, List.drop_length,
      List.take_of_length_le beyond, List.drop_of_length_le beyond]

theorem insertAt_eq (stack : Stack α) (depth : Nat) (item : α) :
    (insertAt stack depth item : Checked σ (Stack α)) = pure (stack.insertAt depth item) := by
  have clamped :
    stack.length - (stack.length - min depth stack.length) = min depth stack.length := by omega
  rw [insertAt, subtract_eq (Nat.min_le_right _ _), pure_bind, insertItem, if_pos (Nat.sub_le _ _),
    clamped, insertAt_min]

theorem shove_eq (stack : Stack α) (depth : Nat) :
    (shove stack depth : Checked σ (Stack α)) = pure (stack.shove depth) := by
  cases stack with
  | nil => rfl
  | cons top rest => exact insertAt_eq rest depth top

theorem removeAt_eq (stack : Stack α) (depth : Nat) :
    (removeAt stack depth : Checked σ (Option (α × Stack α))) = pure (stack.removeAt? depth) := by
  by_cases present : stack = []
  · subst present
    rfl
  · obtain ⟨item, held⟩ := exists_clamp present depth
    have deep : ¬ stack.length = 0 := fun empty => present (List.length_eq_zero_iff.mp empty)
    rw [removeAt, if_neg deep, positionAt_eq present, pure_bind, removeItem_eq _ held rfl,
      pure_bind, Stack.removeAt?, held]
    rfl

theorem yank_eq (stack : Stack α) (depth : Nat) :
    (yank stack depth : Checked σ (Stack α)) = pure (stack.yank depth) := by
  by_cases present : stack = []
  · subst present
    rfl
  · obtain ⟨item, held⟩ := exists_clamp present depth
    have deep : ¬ stack.length = 0 := fun empty => present (List.length_eq_zero_iff.mp empty)
    rw [yank, if_neg deep, positionAt_eq present, pure_bind, removeItem_eq _ held rfl, pure_bind]
    simp only [Stack.yank, Stack.removeAt?, held, Option.map_some]

theorem yankDup_eq (stack : Stack α) (depth : Nat) :
    (yankDup stack depth : Checked σ (Stack α)) = pure (stack.yankDup depth) := by
  by_cases present : stack = []
  · subst present
    rfl
  · obtain ⟨item, held⟩ := exists_clamp present depth
    rw [yankDup, if_pos (show 0 < stack.length from List.length_pos_iff.mpr present),
      positionAt_eq present, pure_bind, itemAt_eq _ held rfl, pure_bind]
    simp only [Stack.yankDup, held]

theorem move_eq (which : StackMove) (stack : Stack α) :
    (move which stack : Checked σ (Stack α)) = pure (which.apply stack) := by
  cases which with
  | pop | flush | dup => rfl
  | swap => exact swap_eq stack
  | rot => exact rot_eq stack

theorem moveDeep_eq (which : DepthMove) (depth : Nat) (stack : Stack α) :
    (moveDeep which depth stack : Checked σ (Stack α)) = pure (which.apply depth stack) := by
  cases which with
  | shove => exact shove_eq stack depth
  | yank => exact yank_eq stack depth
  | yankDup => exact yankDup_eq stack depth

end PushLang.Checked
