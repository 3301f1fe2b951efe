import PushLang.Breeding.Crossover
import PushLang.Program.Path
import PushLang.Program.Point
import PushLang.Random.Source

namespace PushLang

variable {ρ : Type} [RandomSource ρ]

/-- A program with the atom at one of its cuts replaced by the atom at a cut of the donor. -/
def Program.graft (program : Program) (cut : Nat) (donor : Program) (donorCut : Nat) : Program :=
  ((donor.extract? (donorCut + 1)).bind fun atom => program.replace? (cut + 1) atom).getD program

/-- Single-point crossover of programs that keep to a limit. -/
structure SinglePoint where
  homologous : Bool := false
  limit : Nat

namespace SinglePoint

/-- Draws a cut of each parent, or one cut for both. -/
def draw (settings : SinglePoint) (a b : Program) (source : ρ) : (Nat × Nat) × ρ :=
  if settings.homologous then
    let (cut, source) := below (min a.size b.size) source
    ((cut, cut), source)
  else
    let (cutA, source) := below a.size source
    let (cutB, source) := below b.size source
    ((cutA, cutB), source)

/-- The child built on the first parent; one over the limit gives way to its parent. -/
def child (settings : SinglePoint) (a : Program) (cutA : Nat) (b : Program) (cutB : Nat) :
    Program :=
  (a.graft cutA b cutB).orParent a settings.limit

/-- Both children, in the order of the parents. Nothing is drawn for a parent without points. -/
def cross (settings : SinglePoint) (a b : Program) (source : ρ) : (Program × Program) × ρ :=
  if a.size = 0 ∨ b.size = 0 then ((a, b), source)
  else
    let ((cutA, cutB), source) := settings.draw a b source
    ((settings.child a cutA b cutB, settings.child b cutB a cutA), source)

def crossFirst (settings : SinglePoint) (a b : Program) (source : ρ) : Program × ρ :=
  if a.size = 0 ∨ b.size = 0 then (a, source)
  else
    let ((cutA, cutB), source) := settings.draw a b source
    (settings.child a cutA b cutB, source)

end SinglePoint

end PushLang
