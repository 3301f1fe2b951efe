import PushLang.Random.Script

namespace PushLang

namespace Script

/-- The script after some more draws. -/
def advance (script : Script) (count : Nat) : Script :=
  { script with drawn := script.drawn + count }

/-- The draw below a bound that comes after some others. -/
def ahead (script : Script) (count bound : Nat) : Nat :=
  min (entry 0 script.draws (script.drawn + count)) (bound - 1)

theorem below_eq (bound : Nat) (script : Script) :
    below bound script = (script.ahead 0 bound, script.advance 1) :=
  rfl

/-- A script that has not been used yet hands out its first entry where the bound allows it. -/
theorem below_first {draw bound : Nat} (allowed : draw < bound) (more : List Nat)
    (units : List Binary32) :
    below bound ({ draws := draw :: more, units } : Script) =
      (draw, { draws := draw :: more, units, drawn := 1 }) :=
  Prod.ext (Nat.min_eq_left (Nat.le_sub_one_of_lt allowed)) rfl

@[simp] theorem advance_zero (script : Script) : script.advance 0 = script := rfl

@[simp] theorem ahead_advance (script : Script) (taken count bound : Nat) :
    (script.advance taken).ahead count bound = script.ahead (taken + count) bound := by
  simp only [ahead, advance, Nat.add_assoc]

@[simp] theorem advance_advance (script : Script) (taken count : Nat) :
    (script.advance taken).advance count = script.advance (taken + count) := by
  simp only [advance, Nat.add_assoc]

end Script

variable {ρ : Type} [RandomSource ρ]

/-- A source whose next whole draws are known: each of them comes below every bound that allows
it. -/
inductive Deals : ρ → List Nat → ρ → Prop where
  | nil {source : ρ} : Deals source [] source
  | cons {source middle later : ρ} {draw : Nat} {draws : List Nat}
      (next : ∀ bound, draw < bound → below bound source = (draw, middle))
        (rest : Deals middle draws later) :
      Deals source (draw :: draws) later

theorem Deals.exists_middle {source later : ρ} {first second : List Nat}
    (dealt : Deals source (first ++ second) later) :
    ∃ middle, Deals source first middle ∧ Deals middle second later := by
  induction first generalizing source with
  | nil => exact ⟨source, .nil, dealt⟩
  | cons draw first ih =>
    cases dealt with
    | cons next rest =>
      obtain ⟨middle, early, late⟩ := ih rest
      exact ⟨middle, .cons next early, late⟩

theorem Script.deals (script : Script) (done draws : List Nat)
    (entries : script.draws = done ++ draws) (drawn : script.drawn = done.length) :
    Deals script draws (script.advance draws.length) := by
  induction draws generalizing script done with
  | nil => exact .nil
  | cons draw draws ih =>
    have rest :=
      ih (script.advance 1) (done ++ [draw]) (by simp [advance, entries]) (by simp [advance, drawn])
    rw [advance_advance, Nat.add_comm] at rest
    refine .cons (fun bound allowed => ?_) rest
    have upcoming : entry 0 script.draws script.drawn = draw := by simp [entry, entries, drawn]
    have kept : script.ahead 0 bound = draw := by
      rw [ahead, Nat.add_zero, upcoming]
      omega
    rw [below_eq, kept]

end PushLang
