import PushLang.Proofs.Safety.Words
import PushLang.Proofs.Stack.Positions

/-! Access to the items of a stack by depths and indices that are words. Positions count from the
bottom, and every step on the way to one is checked. The one step that can stop an access is the
count of items down to a depth: at the last depth it is no word. -/

namespace PushLang

namespace Checked

variable {σ α : Type}

/-- The item at a depth, if the items down to that depth are not more than there are. -/
def peek (stack : Stack α) (depth : Nat) : Checked σ (Option α) := do
  let count ← toWord (depth + 1)
  if count ≤ stack.length then
    let item ← itemAt stack (stack.length - count)
    return some item
  else return none

theorem peek_eq (stack : Stack α) {depth : Nat} (word : depth + 1 < UInt64.size) :
    (peek stack depth : Checked σ (Option α)) = pure stack[depth]? := by
  rw [peek, toWord_eq word, pure_bind]
  by_cases inside : depth < stack.length
  · have held : stack[depth]? = some stack[depth] := List.getElem?_eq_getElem inside
    rw [if_pos (Nat.succ_le_of_lt inside), itemAt_eq depth held (by omega), pure_bind, held]
  · rw [if_neg (mt Nat.lt_of_succ_le inside), List.getElem?_eq_none (Nat.le_of_not_lt inside)]

theorem peek_overflow (stack : Stack α) {depth : Nat} (last : UInt64.size ≤ depth + 1) :
    (peek stack depth : Checked σ (Option α)) = throw (.fault .overflow) := by
  rw [peek, toWord_overflow last]
  rfl

end Checked

namespace Stack

variable {α : Type}

theorem removeAt?_eq_none (stack : Stack α) (depth : Nat) :
    stack.removeAt? depth = none ↔ stack = [] := by
  constructor
  · intro absent
    refine Classical.byContradiction fun present => ?_
    obtain ⟨item, held⟩ := Checked.exists_clamp present depth
    simp [removeAt?, held] at absent
  · rintro rfl
    rfl

theorem insertAt_of_split (above below : Stack α) (item : α) {depth : Nat}
    (counted : above.length = min depth (above ++ below).length) :
    Stack.insertAt (above ++ below) depth item = above ++ item :: below := by
  rw [← Checked.insertAt_min, ← counted]
  simp [insertAt]

/-- Access to a stack never stops and answers at every word, but for a look at the last depth, which
stops. A look finds just the items within the stack, by depth as by index. An item is removed from
every stack but the empty one. Removals, insertions and moves to a depth take the depth nearest to
it that the stack has. -/
theorem access_total_iff (σ : Type) (stack : Stack α) {depth : Nat} (word : depth < UInt64.size)
    (index : Nat) (item : α) :
    (((∃ found, stack.peek depth = .ok found) ↔ depth ≠ UInt64.size - 1) ∧
      (depth = UInt64.size - 1 →
        (Checked.peek stack depth : Checked σ (Option α)) = throw (.fault .overflow)) ∧
      ∀ found, stack.peek depth = .ok found →
        (Checked.peek stack depth : Checked σ (Option α)) = pure found ∧
        (found.isSome ↔ depth < stack.depth) ∧
          (depth < stack.depth → found = stack.get? (stack.depth - 1 - depth))) ∧
    ((stack.get? index).isSome ↔ index < stack.depth) ∧
    ((Checked.removeAt stack depth : Checked σ (Option (α × Stack α))) =
      pure (stack.removeAt? depth) ∧
      (stack.removeAt? depth = none ↔ stack = []) ∧
      ∀ above removed below, stack = above ++ removed :: below →
        above.length = min depth (stack.depth - 1) →
        stack.removeAt? depth = some (removed, above ++ below)) ∧
    ((Checked.insertAt stack depth item : Checked σ (Stack α)) = pure (stack.insertAt depth item) ∧
      ∀ above below, stack = above ++ below → above.length = min depth stack.depth →
        stack.insertAt depth item = above ++ item :: below) ∧
    ∀ op : DepthMove,
      (Checked.moveDeep op depth stack : Checked σ (Stack α)) = pure (op.apply depth stack) ∧
      (stack = [] → op.apply depth stack = []) ∧
      (stack ≠ [] → op.Moves (min depth (stack.depth - 1)) stack (op.apply depth stack)) := by
  refine ⟨⟨?_, ?_, ?_⟩, stack.isSome_get? index,
    ⟨Checked.removeAt_eq stack depth, stack.removeAt?_eq_none depth, ?_⟩,
    ⟨Checked.insertAt_eq stack depth item, ?_⟩, ?_⟩
  · constructor
    · rintro ⟨found, answered⟩ last
      rw [stack.peek_stops (by omega)] at answered
      cases answered
    · intro before
      exact ⟨stack[depth]?, stack.peek_eq (by omega)⟩
  · intro last
    exact Checked.peek_overflow stack (by omega)
  · intro found answered
    have before : depth + 1 < UInt64.size := by
      refine Nat.lt_of_not_le fun last => ?_
      rw [stack.peek_stops last] at answered
      cases answered
    rw [stack.peek_eq before] at answered
    obtain rfl : stack[depth]? = found := Except.ok.inj answered
    refine ⟨Checked.peek_eq stack before, ?_, fun inside => (get?_of_depth inside).symm⟩
    simp only [isSome_getElem?, Stack.depth]
  · rintro above removed below rfl counted
    exact removeAt?_of_split counted
  · rintro above below rfl counted
    exact insertAt_of_split above below item counted
  · intro op
    refine ⟨Checked.moveDeep_eq op depth stack, ?_,
      fun present => DepthMove.apply_moves op present depth⟩
    rintro rfl
    cases op <;> rfl

/-- The last depth and the one before it, neither of which a stack of two items has. -/
theorem access_total_iff_last :
    let stack : Stack Int32 := [2, 1]
    let last := UInt64.size - 1
    last < UInt64.size ∧ (¬ ∃ found, stack.peek last = .ok found) ∧
      (∃ found, stack.peek (last - 1) = .ok found) ∧
      stack.removeAt? last = some (1, [2]) ∧ stack.insertAt last 0 = [2, 1, 0] := by
  intro stack last
  have word : last < UInt64.size := by decide
  obtain ⟨looked, -, removed, inserted, -⟩ := access_total_iff Unit stack word 0 0
  obtain ⟨before, -⟩ := access_total_iff Unit stack (show last - 1 < UInt64.size by decide) 0 0
  refine ⟨word, fun answered => ?_, ?_, ?_, ?_⟩
  · exact looked.1.mp answered rfl
  · exact before.1.mpr (by decide)
  · exact removed.2.2 [2] 1 [] rfl (by decide)
  · exact inserted.2 [2, 1] [] rfl (by decide)

/-- There is no item at the last depth of a stack, and yet a look at it stops. -/
theorem peek_stops_at_last_word :
    let stack : Stack Int32 := [1]
    let depth := 18446744073709551615
    depth < UInt64.size ∧ ¬ depth < stack.depth ∧ (¬ ∃ found, stack.peek depth = .ok found) ∧
      (Checked.peek stack depth : Checked Unit (Option Int32)) = throw (.fault .overflow) := by
  intro stack depth
  have last : UInt64.size ≤ depth + 1 := by decide
  refine ⟨by decide, by decide, ?_, Checked.peek_overflow stack last⟩
  rintro ⟨found, answered⟩
  rw [peek_stops stack last] at answered
  cases answered

end Stack

end PushLang
