import PushLang.Binary32.Basic

/-! Random sources. Whatever needs chance takes a source and returns it with the draws taken, so
that a run can be replayed from a seed or follow a script. -/

namespace PushLang

/-- A source of draws. A draw below a positive bound stays below it. -/
class RandomSource (ρ : Type) where
  /-- A natural number below the bound. -/
  below : Nat → ρ → Nat × ρ
  /-- A number from zero to below one. -/
  unit : ρ → Binary32 × ρ
  below_lt : ∀ bound source, 0 < bound → (below bound source).1 < bound

export RandomSource (below unit)

def coin {ρ : Type} [RandomSource ρ] (source : ρ) : Bool × ρ :=
  let (side, rest) := below 2 source
  (side == 1, rest)

end PushLang
