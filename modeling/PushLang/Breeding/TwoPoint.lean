import PushLang.Breeding.Crossover
import PushLang.Program.Segment
import PushLang.Random.Retry
import PushLang.Random.Source

namespace PushLang

variable {ρ : Type} [RandomSource ρ]

/-- The cuts at the two ends of a segment. -/
structure Cuts where
  low : Nat
  high : Nat
deriving Repr, DecidableEq

/-- Two draws in order. -/
def Cuts.ordered (first second : Nat) : Cuts := ⟨min first second, max first second⟩

/-- Draws the ends of a segment from the cuts below a bound. -/
def Cuts.draw (bound : Nat) (source : ρ) : Cuts × ρ :=
  let (first, source) := below bound source
  let (second, source) := below bound source
  (Cuts.ordered first second, source)

namespace Program

/-- The segment between two cuts, if there is one. -/
def cutSegment? (program : Program) (cuts : Cuts) : Option Segment :=
  program.segment? (cuts.low + 1) (cuts.high + 1)

/-- A program with one of its segments replaced by the atoms of a donor's segment. -/
def exchange (program : Program) (cuts : Cuts) (donor : Program) (donorCuts : Cuts) : Program :=
  match program.cutSegment? cuts, donor.cutSegment? donorCuts with
  | some target, some found => (program.splice target found.atoms).toOption.getD program
  | _, _ => program

end Program

/-- Two-point crossover of programs that keep to a limit. -/
structure TwoPoint where
  settings : Crossover := {}
  limit : Nat

namespace TwoPoint

/-- Draws the cuts of both parents, those of the first one first, or the same cuts for both. -/
def draw (crossover : TwoPoint) (a b : Program) (source : ρ) : (Cuts × Cuts) × ρ :=
  if crossover.settings.homologous then
    let (cuts, source) := Cuts.draw (min a.size b.size) source
    ((cuts, cuts), source)
  else
    let (cutsA, source) := Cuts.draw a.size source
    let (cutsB, source) := Cuts.draw b.size source
    ((cutsA, cutsB), source)

def attemptPair (crossover : TwoPoint) (a b : Program) (source : ρ) : (Program × Program) × ρ :=
  let ((cutsA, cutsB), source) := crossover.draw a b source
  ((a.exchange cutsA b cutsB, b.exchange cutsB a cutsA), source)

def attemptFirst (crossover : TwoPoint) (a b : Program) (source : ρ) : Program × ρ :=
  let ((cutsA, cutsB), source) := crossover.draw a b source
  (a.exchange cutsA b cutsB, source)

/-- The children of the first attempt in which both fit, and else the parents. -/
def crossPair (crossover : TwoPoint) (a b : Program) (source : ρ) : (Program × Program) × ρ :=
  let (children, source) := retry (crossover.attemptPair a b)
    (fun (childA, childB) => childA.fits crossover.limit && childB.fits crossover.limit)
    crossover.settings.tries source
  (children.getD (a, b), source)

/-- The child of the first attempt in which it fits, and else its parent. -/
def crossOne (crossover : TwoPoint) (a b : Program) (source : ρ) : Program × ρ :=
  let (child, source) :=
    retry (crossover.attemptFirst a b) (fun child => child.fits crossover.limit)
    crossover.settings.tries source
  (child.getD a, source)

/-- Both children, in the order of the parents. Nothing is drawn for a parent without points. -/
def cross (crossover : TwoPoint) (a b : Program) (source : ρ) : (Program × Program) × ρ :=
  if a.size = 0 ∨ b.size = 0 then ((a, b), source)
  else match crossover.settings.scope with
    | .pair => crossover.crossPair a b source
    | .perParent =>
      let (childA, source) := crossover.crossOne a b source
      let (childB, source) := crossover.crossOne b a source
      ((childA, childB), source)

def crossFirst (crossover : TwoPoint) (a b : Program) (source : ρ) : Program × ρ :=
  if a.size = 0 ∨ b.size = 0 then (a, source) else crossover.crossOne a b source

end TwoPoint

end PushLang
