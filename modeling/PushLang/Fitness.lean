import PushLang.Binary32.Arithmetic

namespace PushLang

structure Fitness where
  /-- Mean error; less is better. -/
  standardized : Binary32 := 0
  /-- Cases whose error lies below the threshold. -/
  hits : Nat := 0

namespace Fitness

/-- The fitness of some errors. A total beyond the range of numbers gives the largest number, so
that it still compares. -/
def ofErrors (errors : List Binary32) (threshold : Binary32) : Fitness :=
  let total := errors.foldl (· + ·) 0
  { standardized :=
      if total.isInfinite then Binary32.largest
      else if errors.isEmpty then 0
      else total / Binary32.ofInt errors.length
    hits := errors.countP (· < threshold) }

/-- Whether nothing of the error is left. -/
def isIdeal (fitness : Fitness) : Bool := fitness.standardized.isZero

def isBetterThan (a b : Fitness) : Bool := a.standardized < b.standardized

/-- Fitness values are equal when both parts are, a NaN being equal to nothing. -/
instance : BEq Fitness where
  beq a b := a.standardized.isEqual b.standardized && a.hits == b.hits

end Fitness

end PushLang
