import PushLang.Json.Record
import PushLang.Program.Point
import PushLang.Random.Source

namespace PushLang

variable {ρ : Type} [RandomSource ρ]

/-- How a point is selected. -/
inductive Selector where
  /-- Every point below the root is equally likely. -/
  | uniform
  /-- First the kind is drawn, a nested program with the given probability and a leaf otherwise, and
  then the point. -/
  | byKind (nestedProbability : Binary32)

/-- The cuts at atoms that pass a test, in order. -/
def Program.cutsWhere (program : Program) (test : Atom → Bool) : List Nat :=
  (program.indexedPoints.filter fun (_, atom) => test atom).map fun (index, _) => index - 1

namespace Selector

def fieldNames : List String := ["internal_probability"]

def ofJson? (json : Json) : Option Selector := do
  let fields ← json.fields? fieldNames
  return .byKind (← fields.get? 0 Json.single? 0.9)

def parse (text : String) : Except Error Selector := Json.decode ofJson? text

/-- The cuts to choose from: those of the kind wanted, or of the other kind where there are none. -/
def pool (program : Program) (wantNested : Bool) : List Nat :=
  let nested := program.cutsWhere Atom.isProgram
  let leaves := program.cutsWhere fun atom => !atom.isProgram
  if (wantNested || leaves.isEmpty) && !nested.isEmpty then nested else leaves

/-- A cut of a program, or zero where there is none. -/
def select (program : Program) (source : ρ) : Selector → Nat × ρ
  | .uniform => if program.size = 0 then (0, source) else below program.size source
  | .byKind nestedProbability =>
    let (draw, source) := unit source
    let cuts := pool program (draw < nestedProbability)
    if cuts.isEmpty then (0, source)
    else
      let (index, source) := below cuts.length source
      (cuts.getD index 0, source)

end Selector

end PushLang
