import PushLang.Proofs.Safety.Moves

/-! Positions of stack items: depths from the top, indices from the bottom, and moves between the
top and another position. A yank undoes a shove to the same position and is undone by it, so where
the one leaves every item says where the other takes it from. -/

namespace PushLang

variable {α : Type}

namespace Stack

/-- Every depth but the last word can be looked at. -/
theorem peek_eq (stack : Stack α) {depth : Nat} (word : depth + 1 < UInt64.size) :
    stack.peek depth = .ok stack[depth]? :=
  if_pos word

/-- The items down to the last depth are more than a word can count. -/
theorem peek_stops (stack : Stack α) {depth : Nat} (last : UInt64.size ≤ depth + 1) :
    stack.peek depth = .error .outOfRange := if_neg (Nat.not_lt.mpr last)

theorem peek_congr {stack other : Stack α} {depth : Nat} (same : stack[depth]? = other[depth]?) :
    stack.peek depth = other.peek depth := by
  rw [peek, peek, same]

theorem get?_eq (stack : Stack α) (index : Nat) : stack.get? index = stack.toBottom[index]? := by
  unfold get? toBottom
  split
  · rename_i inside
    rw [List.getElem?_reverse inside]
  · rename_i outside
    rw [List.getElem?_eq_none (by rw [List.length_reverse]; exact Nat.le_of_not_lt outside)]

theorem isSome_get? (stack : Stack α) (index : Nat) :
    (stack.get? index).isSome ↔ index < stack.depth := by
  rw [get?_eq, isSome_getElem?, toBottom, List.length_reverse, depth]

theorem get?_of_depth {stack : Stack α} {depth : Nat} (inside : depth < stack.depth) :
    stack.get? (stack.depth - 1 - depth) = stack[depth]? := by
  have within : depth < stack.length := inside
  rw [Stack.depth, get?, if_pos (by omega)]
  congr 1
  omega

theorem filterMap_getElem?_range (items : List α) {count : Nat} (enough : items.length ≤ count) :
    (List.range count).filterMap (fun index => items[index]?) = items := by
  induction items generalizing count with
  | nil => simp
  | cons item items ih =>
    obtain ⟨count, rfl⟩ := Nat.exists_eq_add_of_le' (Nat.le_trans (Nat.succ_pos _) enough)
    rw [List.range_succ_eq_map, List.filterMap_cons, List.getElem?_cons_zero, List.filterMap_map]
    exact congrArg (item :: ·) (ih (Nat.le_of_succ_le_succ enough))

/-- The items with indices below a count are all of them if they are not more. -/
theorem filterMap_get?_range {stack : Stack α} {count : Nat} (enough : stack.depth ≤ count) :
    (List.range count).filterMap stack.get? = stack.toBottom := by
  rw [show stack.get? = fun index => stack.toBottom[index]? from funext stack.get?_eq]
  exact filterMap_getElem?_range _ (by rwa [toBottom, List.length_reverse])

end Stack

namespace Stack

/-- A stack that is not empty has an item at every clamped depth. -/
theorem exists_split {stack : Stack α} (present : stack ≠ []) (depth : Nat) :
    ∃ above item below, stack = above ++ item :: below ∧ above.length = stack.clamp depth := by
  obtain ⟨item, held⟩ := Checked.exists_clamp present depth
  obtain ⟨inside, found⟩ := List.getElem?_eq_some_iff.mp held
  refine ⟨stack.take (stack.clamp depth), item, stack.drop (stack.clamp depth + 1), ?_, ?_⟩
  · rw [← found, ← List.drop_eq_getElem_cons inside, List.take_append_drop]
  · exact List.length_take_of_le (Nat.le_of_lt inside)

theorem clamp_length (above : Stack α) (item : α) (below : Stack α) :
    Stack.clamp (above ++ item :: below) above.length = above.length := by
  unfold clamp
  rw [List.length_append, List.length_cons]
  omega

section

variable {above : Stack α} {item : α} {below : Stack α} {depth : Nat}
  (counted : above.length = Stack.clamp (above ++ item :: below) depth)

include counted

theorem removeAt?_of_split :
    Stack.removeAt? (above ++ item :: below) depth = some (item, above ++ below) := by
  simp [removeAt?, ← counted, List.eraseIdx_append_of_length_le]

theorem yank_of_split : Stack.yank (above ++ item :: below) depth = item :: (above ++ below) := by
  rw [yank, removeAt?_of_split counted]

theorem yankDup_of_split :
    Stack.yankDup (above ++ item :: below) depth = item :: (above ++ item :: below) := by
  simp [yankDup, ← counted]

end

end Stack

namespace DepthMove

/-- What a move to a position, or from it, makes of a stack. The position counts the items above. -/
inductive Moves : DepthMove → Nat → Stack α → Stack α → Prop where
  | shove (top : α) (above below : Stack α) :
      Moves .shove above.length (top :: (above ++ below)) (above ++ top :: below)
  | yank (above : Stack α) (item : α) (below : Stack α) :
    Moves .yank above.length (above ++ item :: below) (item :: (above ++ below))
  | yankDup (above : Stack α) (item : α) (below : Stack α) :
    Moves .yankDup above.length (above ++ item :: below) (item :: (above ++ item :: below))

theorem apply_moves (op : DepthMove) {stack : Stack α} (present : stack ≠ []) (depth : Nat) :
    op.Moves (stack.clamp depth) stack (op.apply depth stack) := by
  cases op with
  | shove =>
    cases stack with
    | nil => exact absurd rfl present
    | cons top rest =>
      have clamped : (rest.take depth).length = Stack.clamp (top :: rest) depth := List.length_take
      have moves := Moves.shove top (rest.take depth) (rest.drop depth)
      rwa [List.take_append_drop, clamped] at moves
  | yank =>
    obtain ⟨above, item, below, rfl, counted⟩ := Stack.exists_split present depth
    rw [apply, Stack.yank_of_split counted, ← counted]
    exact .yank above item below
  | yankDup =>
    obtain ⟨above, item, below, rfl, counted⟩ := Stack.exists_split present depth
    rw [apply, Stack.yankDup_of_split counted, ← counted]
    exact .yankDup above item below

namespace Moves

variable {op : DepthMove} {position : Nat} {stack after : Stack α}

theorem eq_apply (moves : op.Moves position stack after) : after = op.apply position stack := by
  cases moves with
  | shove top above below => simp [apply, Stack.shove, Stack.insertAt]
  | yank above item below =>
    exact (Stack.yank_of_split (Stack.clamp_length above item below).symm).symm
  | yankDup above item below =>
    exact (Stack.yankDup_of_split (Stack.clamp_length above item below).symm).symm

theorem yank_of_shove (moves : Moves .shove position stack after) :
    Moves .yank position after stack := by
  cases moves with
  | shove top above below => exact .yank above top below

theorem shove_of_yank (moves : Moves .yank position stack after) :
    Moves .shove position after stack := by
  cases moves with
  | yank above item below => exact .shove item above below

theorem getElem?_zero (moves : Moves .yank position stack after) :
    after[0]? = stack[position]? := by
  cases moves with
  | yank above item below => simp

theorem getElem?_succ (moves : Moves .yank position stack after) {depth : Nat}
    (above : depth < position) :
    after[depth + 1]? = stack[depth]? := by
  cases moves with
  | yank =>
    rw [List.getElem?_cons_succ, List.getElem?_append_left above, List.getElem?_append_left above]

theorem getElem?_below (moves : Moves .yank position stack after) {depth : Nat}
    (below : position < depth) :
    after[depth]? = stack[depth]? := by
  obtain ⟨more, rfl⟩ := Nat.exists_eq_add_of_lt below
  cases moves with
  | yank above item rest =>
    rw [List.getElem?_cons_succ, List.getElem?_append_right (Nat.le_add_right _ _), Nat.add_assoc,
      List.getElem?_append_right (Nat.le_add_right _ _), Nat.add_sub_cancel_left,
      Nat.add_sub_cancel_left, List.getElem?_cons_succ]

end Moves

end DepthMove

namespace Stack

theorem swap_eq_yank (stack : Stack α) : stack.swap = stack.yank 1 := by
  rcases stack with _ | ⟨first, _ | ⟨second, rest⟩⟩ <;> rfl

/-- To rotate the top three items is to yank the third, if there is one. -/
theorem rot_eq_yank (stack : Stack α) :
    stack.rot = if 3 ≤ stack.length then stack.yank 2 else stack := by
  rcases stack with _ | ⟨first, _ | ⟨second, _ | ⟨third, rest⟩⟩⟩ <;> rfl

/-- A yank takes the item at a depth, or else the last one, to the top and moves those above it down
by one. A shove takes the top there and moves these up by one, so that each undoes the other.
Nothing below is moved, and a copying yank moves nothing. To exchange two items is to yank the
second, and to rotate three is to yank the third. -/
theorem moves_exact (stack : Stack α) (depth : Nat) :
    (stack ≠ [] → stack.length < UInt64.size →
      let position := min depth (stack.length - 1)
      ((stack.yank depth).peek 0 = stack.peek position ∧
        (∀ i, 1 ≤ i → i ≤ position → (stack.yank depth).peek i = stack.peek (i - 1)) ∧
        ∀ i, position < i → (stack.yank depth).peek i = stack.peek i) ∧
      ((stack.shove depth).peek position = .ok stack.top? ∧
        (∀ i, i < position → (stack.shove depth).peek i = stack.peek (i + 1)) ∧
        ∀ i, position < i → (stack.shove depth).peek i = stack.peek i) ∧
      (∃ item, stack.peek position = .ok (some item) ∧ stack.yankDup depth = item :: stack) ∧
      (stack.shove depth).yank position = stack ∧ (stack.yank depth).shove position = stack) ∧
    stack.swap = stack.yank 1 ∧ stack.rot = if 3 ≤ stack.length then stack.yank 2 else stack := by
  refine ⟨?_, stack.swap_eq_yank, stack.rot_eq_yank⟩
  intro present counted position
  have yanked : DepthMove.yank.Moves position stack (stack.yank depth) :=
    DepthMove.apply_moves .yank present depth
  have shoved : DepthMove.shove.Moves position stack (stack.shove depth) :=
    DepthMove.apply_moves .shove present depth
  -- Where a shove leaves every item is read off the yank that takes it back.
  have unshoved := shoved.yank_of_shove
  have positive : 0 < stack.length := List.length_pos_iff.mpr present
  have word {i : Nat} (within : i ≤ position) : i + 1 < UInt64.size := by omega
  refine ⟨⟨?_, ?_, ?_⟩, ⟨?_, ?_, ?_⟩, ?_, ?_, ?_⟩
  · rw [peek_eq _ (word (Nat.zero_le _)), peek_eq _ (word (Nat.le_refl _)), yanked.getElem?_zero]
  · intro i lower within
    obtain ⟨above, rfl⟩ := Nat.exists_eq_add_of_le' lower
    rw [Nat.add_sub_cancel, peek_eq _ (word within), peek_eq _ (word (Nat.le_of_succ_le within)),
      yanked.getElem?_succ within]
  · intro i below
    exact peek_congr (yanked.getElem?_below below)
  · rw [peek_eq _ (word (Nat.le_refl _)), ← unshoved.getElem?_zero, top?, List.head?_eq_getElem?]
  · intro i above
    rw [peek_eq _ (word (Nat.le_of_lt above)), peek_eq _ (word above), unshoved.getElem?_succ above]
  · intro i below
    exact peek_congr (unshoved.getElem?_below below).symm
  · obtain ⟨item, held⟩ : ∃ item, stack[position]? = some item := Checked.exists_clamp present depth
    refine ⟨item, by rw [peek_eq _ (word (Nat.le_refl _)), held], ?_⟩
    rw [yankDup, show stack[stack.clamp depth]? = some item from held]
  · exact unshoved.eq_apply.symm
  · exact yanked.shove_of_yank.eq_apply.symm

/-- A depth beyond the bottom of four items. -/
theorem moves_exact_beyond :
    let stack : Stack Int32 := [4, 3, 2, 1]
    stack ≠ [] ∧ stack.length < UInt64.size ∧ (stack.yank 10).peek 2 = stack.peek 1 ∧
      (stack.shove 10).peek 3 = .ok (some 4) ∧ (stack.shove 10).yank 3 = stack ∧
        (stack.yank 10).shove 3 = stack := by
  intro stack
  have present : stack ≠ [] := by simp [stack]
  have counted : stack.length < UInt64.size := by decide
  obtain ⟨yanked, shoved, -, inverse⟩ := (moves_exact stack 10).1 present counted
  exact ⟨present, counted, yanked.2.1 2 (by decide) (by decide), shoved.1, inverse⟩

end Stack

end PushLang
