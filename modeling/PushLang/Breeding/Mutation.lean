import PushLang.Breeding.Crossover
import PushLang.Breeding.Selector
import PushLang.Generation.Code
import PushLang.Program.Path

namespace PushLang

variable {ρ : Type} [RandomSource ρ]

structure Mutation where
  /-- Whether a replacement is about as large as what it replaces. -/
  fair : Bool := true
  /-- The share of the old size that a fair replacement may deviate by. -/
  fairRange : Binary32 := 0.3

namespace Mutation

def fieldNames : List String := ["use_fair", "fair_mutation_range"]

def ofJson? (json : Json) : Option Mutation := do
  let fields ← json.fields? fieldNames
  let default : Mutation := {}
  return {
    fair := ← fields.get? 0 Json.boolean? default.fair
    fairRange := ← fields.get? 1 Json.single? default.fairRange }

def parse (text : String) : Except Error Mutation := Json.decode ofJson? text

/-- How far a fair replacement may deviate from the old size: a share of it, at least one. -/
def deviation (range : Binary32) (old : Nat) : Nat :=
  max 1 (range * Binary32.ofInt old).toUInt64.toNat

/-- A size drawn around the old one, at least one. The width of the range is a 64-bit word and the
draw a signed one, so a share of the old size may be too large. -/
def fairSize (range : Binary32) (old : Nat) (source : ρ) : Except Fault (Nat × ρ) :=
  let deviation := deviation range old
  if UInt64.size ≤ 2 * deviation then .error .overflow
  else
    let (draw, source) := below (2 * deviation) source
    if UInt64.size / 2 ≤ draw then .error .overflow
    else .ok (max 1 (old + draw - deviation), source)

/-- The points of the replacement for an atom that takes up `old` points. -/
def newSize (mutation : Mutation) (config : Config) (old : Nat) (source : ρ) :
    Except Fault (Nat × ρ) :=
  if mutation.fair then fairSize mutation.fairRange old source
  else
    let (draw, source) := below (max 1 config.maxRandomCodeSize) source
    .ok (draw + 1, source)

/-- A random atom with a number of points: a leaf for one point, else a nested program. -/
def replacement (env : Environment) (size : Nat) : Draw ρ Atom :=
  if size = 1 then env.randomAtom
  else do
    let body ← env.randomCode size
    return .program body

/-- The parent with the atom after a cut replaced by a random one, unless that is over the size
limit. -/
def replaceAt (env : Environment) (parent : Program) (cut size : Nat) : Draw ρ Program := do
  let atom ← replacement env size
  return ((parent.replace? (cut + 1) atom).getD parent).orParent parent env.config.maxPoints

/-- A mutated program. A program without points stays as it is, and a child over the size limit
gives way to its parent. -/
def mutate (mutation : Mutation) (selector : Selector) (env : Environment) (parent : Program)
    (source : ρ) :
    Except Fault (EStateM.Result Error ρ Program) :=
  if parent.size = 0 then .ok (.ok parent source)
  else
    let (cut, source) := selector.select parent source
    let old := (parent.pointsAt? (cut + 1)).getD 1
    (mutation.newSize env.config old source).map fun (size, source) =>
      replaceAt env parent cut size source

end Mutation

end PushLang
