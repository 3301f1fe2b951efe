import PushLang.Error
import PushLang.Random.Source

/-! Checked actions. They are written in single steps, and a step whose condition does not hold
stops the action: a pop from an empty stack, a draw from an empty range, a position outside of a
list, a number outside of its range. -/

namespace PushLang

/-- What stops a checked action. -/
inductive Trap where
  | error (cause : Error)
  | fault (cause : Fault)
  /-- A recursion reaches its bound before its end. -/
  | cutOff

abbrev Checked (σ α : Type) := EStateM Trap σ α

namespace Checked

variable {σ α β : Type}

def subtract (a b : Nat) : Checked σ Nat := if b ≤ a then pure (a - b) else throw (.fault .overflow)

/-- The entry of a list at a position. -/
def entry (items : List α) (position : Nat) : Checked σ α :=
  match items[position]? with
  | some item => pure item
  | none => throw (.fault .outOfRange)

/-- A sum of integers within their 32 bits. -/
def addInteger (a b : Int32) : Checked σ Int32 :=
  if (a + b).toInt = a.toInt + b.toInt then pure (a + b) else throw (.fault .overflow)

/-- A difference of integers within their 32 bits. -/
def subtractInteger (a b : Int32) : Checked σ Int32 :=
  if (a - b).toInt = a.toInt - b.toInt then pure (a - b) else throw (.fault .overflow)

/-- A draw below a bound, which is not zero. -/
def drawBelow {ρ : Type} [RandomSource ρ] (bound : Nat) : Checked ρ Nat := fun source =>
  if bound = 0 then .error (.fault .emptyRange) source
  else
    let (draw, source) := below bound source
    .ok draw source

/-- A draw that has no conditions. -/
def draw (plain : σ → α × σ) : Checked σ α := fun state =>
  let (value, state) := plain state
  .ok value state

@[simp] theorem bind_apply (first : Checked σ α) (next : α → Checked σ β) (state : σ) :
    (first >>= next) state = match first state with
      | .ok value after => next value after
      | .error trap after => .error trap after := by
  change EStateM.bind first next state = _
  rw [EStateM.bind]
  cases first state <;> rfl

@[simp] theorem map_apply (change : α → β) (first : Checked σ α) (state : σ) :
    (change <$> first) state = match first state with
      | .ok value after => .ok (change value) after
      | .error trap after => .error trap after := by
  change EStateM.map change first state = _
  rw [EStateM.map]
  cases first state <;> rfl

@[simp] theorem pure_apply (value : α) (state : σ) :
    (pure value : Checked σ α) state = .ok value state :=
  rfl

@[simp] theorem throw_apply (trap : Trap) (state : σ) :
    (throw trap : Checked σ α) state = .error trap state :=
  rfl

@[simp] theorem get_apply (state : σ) : (get : Checked σ σ) state = .ok state state := rfl

@[simp] theorem modify_apply (change : σ → σ) (state : σ) :
    (modify change : Checked σ Unit) state = .ok () (change state) := rfl

theorem subtract_eq {a b : Nat} (within : b ≤ a) : (subtract a b : Checked σ Nat) = pure (a - b) :=
  if_pos within

theorem entry_eq {items : List α} {position : Nat} {item : α}
    (found : items[position]? = some item) :
    (entry items position : Checked σ α) = pure item := by
  simp only [entry, found]

theorem addInteger_eq {a b : Int32} (low : -2147483648 ≤ a.toInt + b.toInt)
    (high : a.toInt + b.toInt ≤ 2147483647) :
    (addInteger a b : Checked σ Int32) = pure (a + b) := by
  refine if_pos ?_
  rw [Int32.toInt_add]
  exact Int.bmod_eq_of_le (by omega) (by omega)

theorem subtractInteger_eq {a b : Int32} (low : -2147483648 ≤ a.toInt - b.toInt)
    (high : a.toInt - b.toInt ≤ 2147483647) :
    (subtractInteger a b : Checked σ Int32) = pure (a - b) := by
  refine if_pos ?_
  rw [Int32.toInt_sub]
  exact Int.bmod_eq_of_le (by omega) (by omega)

/-- A checked action that is never stopped and does what a plain action does, which does not fail
either. -/
def Passes (checked : Checked σ α) (plain : EStateM Error σ α) : Prop :=
  ∀ state, ∃ value after, plain state = .ok value after ∧ checked state = .ok value after

/-- A checked draw that is never stopped and draws what a plain one does. -/
def Yields (checked : Checked σ α) (plain : σ → α × σ) : Prop :=
  ∀ state, checked state = .ok (plain state).1 (plain state).2

theorem Yields.drawBelow {ρ : Type} [RandomSource ρ] {bound : Nat} (positive : 0 < bound) :
    (drawBelow bound : Checked ρ Nat).Yields (below bound) := by
  intro source
  simp only [Checked.drawBelow, if_neg (Nat.ne_of_gt positive)]

namespace Passes

theorem pure (value : α) : Passes (Pure.pure value : Checked σ α) (Pure.pure value) :=
  fun state => ⟨value, state, rfl, rfl⟩

theorem bind {checked : Checked σ α} {plain : EStateM Error σ α} {next : α → Checked σ β}
    {plainNext : α → EStateM Error σ β} (first : checked.Passes plain)
    (later : ∀ value, (next value).Passes (plainNext value)) :
    (checked >>= next).Passes (plain >>= plainNext) := by
  intro state
  obtain ⟨value, middle, plainFirst, checkedFirst⟩ := first state
  obtain ⟨result, after, plainLater, checkedLater⟩ := later value middle
  refine ⟨result, after, ?_, ?_⟩
  · change EStateM.bind plain plainNext state = _
    simp only [EStateM.bind, plainFirst, plainLater]
  · simp only [bind_apply, checkedFirst, checkedLater]

theorem modify {checked : Checked σ Unit} {change : σ → σ}
    (same : ∀ state, checked state = .ok () (change state)) :
    checked.Passes (modify change) :=
  fun state => ⟨(), change state, rfl, same state⟩

end Passes

/-- A result of plain steps as one of checked steps. -/
def ofResult : EStateM.Result Error σ α → EStateM.Result Trap σ α
  | .ok value after => .ok value after
  | .error cause after => .error (.error cause) after

/-- A checked action that does what a plain action does: it fails where that fails, and no check
stops it. -/
def Follows (checked : Checked σ α) (plain : EStateM Error σ α) : Prop :=
  ∀ state, checked state = ofResult (plain state)

theorem Passes.follows {checked : Checked σ α} {plain : EStateM Error σ α}
    (passes : checked.Passes plain) :
    checked.Follows plain := by
  intro state
  obtain ⟨value, after, plainRun, checkedRun⟩ := passes state
  rw [plainRun, checkedRun, ofResult]

theorem Follows.bind {checked : Checked σ α} {plain : EStateM Error σ α} {next : α → Checked σ β}
    {plainNext : α → EStateM Error σ β} (first : checked.Follows plain)
    (later : ∀ value, (next value).Follows (plainNext value)) :
    (checked >>= next).Follows (plain >>= plainNext) := by
  intro state
  change _ = ofResult (EStateM.bind plain plainNext state)
  rw [bind_apply, first state, EStateM.bind]
  cases plain state with
  | ok value after => exact later value after
  | error cause after => rfl

end Checked

end PushLang
