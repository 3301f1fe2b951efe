import PushLang.Random.Source

/-! Scripted draws. A script lists the draws to hand out; once it runs out its last one repeats, and
an empty one is all zeros. -/

namespace PushLang

/-- A script and how much of it was used. -/
structure Script where
  draws : List Nat := []
  units : List Binary32 := []
  /-- Whole draws taken so far. -/
  drawn : Nat := 0
  /-- Unit draws taken so far. -/
  unitsDrawn : Nat := 0

namespace Script

/-- The entry of a script at an index, the last one repeating. -/
def entry {α : Type} (default : α) (entries : List α) (index : Nat) : α :=
  (entries[index]? <|> entries.getLast?).getD default

/-- The next draw, lowered to the last value below the bound if it lies above. -/
def next (bound : Nat) (script : Script) : Nat × Script :=
  (min (entry 0 script.draws script.drawn) (bound - 1), { script with drawn := script.drawn + 1 })

def nextUnit (script : Script) : Binary32 × Script :=
  (entry 0 script.units script.unitsDrawn, { script with unitsDrawn := script.unitsDrawn + 1 })

instance : RandomSource Script where
  below := next
  unit := nextUnit
  below_lt bound script positive := by simp only [next]; omega

end Script

end PushLang
