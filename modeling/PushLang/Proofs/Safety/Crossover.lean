import PushLang.Proofs.Breeding.Conservation
import PushLang.Proofs.Safety.Points

namespace PushLang

variable {ρ : Type} [RandomSource ρ]

theorem Cuts.draw_below {bound : Nat} (positive : 0 < bound) (source : ρ) :
    (Cuts.draw bound source).1.Below bound := by
  have first := RandomSource.below_lt bound source positive
  have second := RandomSource.below_lt bound (below bound source).2 positive
  constructor <;> simp only [Cuts.draw, Cuts.ordered] <;> omega

namespace TwoPoint

variable (crossover : TwoPoint) {a b : Program} (hasA : 0 < a.size) (hasB : 0 < b.size) (source : ρ)

include hasA hasB

theorem draw_below :
    (crossover.draw a b source).1.1.Below a.size ∧
      (crossover.draw a b source).1.2.Below b.size := by
  unfold draw
  split
  · have common := Cuts.draw_below (Nat.lt_min.mpr ⟨hasA, hasB⟩) source
    exact ⟨common.mono (Nat.min_le_left _ _), common.mono (Nat.min_le_right _ _)⟩
  · exact ⟨Cuts.draw_below hasA source, Cuts.draw_below hasB (Cuts.draw a.size source).2⟩

theorem draw_exchanges :
    a.Exchanges (crossover.draw a b source).1.1 b (crossover.draw a b source).1.2 ∧
      b.Exchanges (crossover.draw a b source).1.2 a (crossover.draw a b source).1.1 := by
  obtain ⟨insideA, insideB⟩ := crossover.draw_below hasA hasB source
  exact ⟨.of_below insideA insideB, .of_below insideB insideA⟩

end TwoPoint

theorem SinglePoint.draw_grafts (settings : SinglePoint) {a b : Program} (hasA : 0 < a.size)
    (hasB : 0 < b.size) (source : ρ) :
    a.Grafts (settings.draw a b source).1.1 b (settings.draw a b source).1.2 ∧
      b.Grafts (settings.draw a b source).1.2 a (settings.draw a b source).1.1 := by
  obtain ⟨insideA, insideB⟩ := settings.draw_lt a b source hasA hasB
  exact ⟨.of_lt insideA insideB, .of_lt insideB insideA⟩

namespace Checked

variable {σ α : Type}

def retry (attempt : Checked σ α) (good : α → Bool) : Nat → Checked σ (Option α)
  | 0 => pure none
  | tries + 1 => do
    let result ← attempt
    if good result then return some result else retry attempt good tries

namespace SinglePoint

variable (settings : SinglePoint) (a b : Program)

def draw : Checked ρ (Nat × Nat) :=
  if settings.homologous then do
    let cut ← drawBelow (min a.size b.size)
    return (cut, cut)
  else do
    let cutA ← drawBelow a.size
    let cutB ← drawBelow b.size
    return (cutA, cutB)

def cross : Checked ρ (Program × Program) :=
  if a.size = 0 ∨ b.size = 0 then pure (a, b)
  else do
    let (cutA, cutB) ← draw settings a b
    let childA ← graft a cutA b cutB
    let childB ← graft b cutB a cutA
    return (childA.orParent a settings.limit, childB.orParent b settings.limit)

def crossFirst : Checked ρ Program :=
  if a.size = 0 ∨ b.size = 0 then pure a
  else do
    let (cutA, cutB) ← draw settings a b
    let child ← graft a cutA b cutB
    return child.orParent a settings.limit

end SinglePoint

/-- Draws the ends of a segment in checked steps. -/
def drawCuts (bound : Nat) : Checked ρ Cuts := do
  let first ← drawBelow bound
  let second ← drawBelow bound
  return Cuts.ordered first second

namespace TwoPoint

variable (crossover : TwoPoint) (a b : Program)

def draw : Checked ρ (Cuts × Cuts) :=
  if crossover.settings.homologous then do
    let cuts ← drawCuts (min a.size b.size)
    return (cuts, cuts)
  else do
    let cutsA ← drawCuts a.size
    let cutsB ← drawCuts b.size
    return (cutsA, cutsB)

def attemptPair : Checked ρ (Program × Program) := do
  let (cutsA, cutsB) ← draw crossover a b
  let childA ← exchange a cutsA b cutsB
  let childB ← exchange b cutsB a cutsA
  return (childA, childB)

def attemptFirst : Checked ρ Program := do
  let (cutsA, cutsB) ← draw crossover a b
  exchange a cutsA b cutsB

def crossPair : Checked ρ (Program × Program) := do
  let children ← retry (attemptPair crossover a b)
    (fun (childA, childB) => childA.fits crossover.limit && childB.fits crossover.limit)
      crossover.settings.tries
  return children.getD (a, b)

def crossOne : Checked ρ Program := do
  let child ← retry (attemptFirst crossover a b)
    (fun child => child.fits crossover.limit) crossover.settings.tries
  return child.getD a

def cross : Checked ρ (Program × Program) :=
  if a.size = 0 ∨ b.size = 0 then pure (a, b)
  else match crossover.settings.scope with
    | .pair => crossPair crossover a b
    | .perParent => do
      let childA ← crossOne crossover a b
      let childB ← crossOne crossover b a
      return (childA, childB)

def crossFirst : Checked ρ Program :=
  if a.size = 0 ∨ b.size = 0 then pure a else crossOne crossover a b

end TwoPoint

omit [RandomSource ρ] in
theorem retry_yields {attempt : Checked ρ α} {plain : ρ → α × ρ} (each : attempt.Yields plain)
    (good : α → Bool) (tries : Nat) :
    (retry attempt good tries).Yields (PushLang.retry plain good tries) := by
  induction tries with
  | zero => exact fun source => rfl
  | succ tries ih =>
    intro source
    simp only [retry, PushLang.retry, bind_apply, each source]
    split
    · rfl
    · exact ih _

namespace SinglePoint

variable (settings : SinglePoint) (a b : Program)

theorem draw_yields {a b : Program} (hasA : 0 < a.size) (hasB : 0 < b.size) :
    (draw settings a b : Checked ρ (Nat × Nat)).Yields (settings.draw a b) := by
  intro source
  unfold draw PushLang.SinglePoint.draw
  split
  · have drawn := Yields.drawBelow (Nat.lt_min.mpr ⟨hasA, hasB⟩) source
    simp only [bind_apply, drawn, pure_apply]
  · have first := Yields.drawBelow hasA source
    have second := Yields.drawBelow hasB (below a.size source).2
    simp only [bind_apply, first, second, pure_apply]

theorem cross_yields :
    (cross settings a b : Checked ρ (Program × Program)).Yields (settings.cross a b) := by
  intro source
  unfold cross PushLang.SinglePoint.cross
  split
  · rfl
  · rename_i present
    have hasA : 0 < a.size := by omega
    have hasB : 0 < b.size := by omega
    obtain ⟨first, second⟩ := settings.draw_grafts hasA hasB source
    simp only [bind_apply, draw_yields settings hasA hasB source, graft_eq first, graft_eq second,
      pure_apply]
    rfl

theorem crossFirst_yields :
    (crossFirst settings a b : Checked ρ Program).Yields (settings.crossFirst a b) := by
  intro source
  unfold crossFirst PushLang.SinglePoint.crossFirst
  split
  · rfl
  · rename_i present
    have hasA : 0 < a.size := by omega
    have hasB : 0 < b.size := by omega
    obtain ⟨first, -⟩ := settings.draw_grafts hasA hasB source
    simp only [bind_apply, draw_yields settings hasA hasB source, graft_eq first, pure_apply]
    rfl

end SinglePoint

theorem drawCuts_yields {bound : Nat} (positive : 0 < bound) :
    (drawCuts bound : Checked ρ Cuts).Yields (Cuts.draw bound) := by
  intro source
  have first := Yields.drawBelow positive source
  have second := Yields.drawBelow positive (below bound source).2
  simp only [drawCuts, Cuts.draw, bind_apply, first, second, pure_apply]

namespace TwoPoint

variable (crossover : TwoPoint)

section Present

variable {a b : Program} (hasA : 0 < a.size) (hasB : 0 < b.size)

include hasA hasB

theorem draw_yields :
    (draw crossover a b : Checked ρ (Cuts × Cuts)).Yields (crossover.draw a b) := by
  intro source
  unfold draw PushLang.TwoPoint.draw
  split
  · have drawn := drawCuts_yields (Nat.lt_min.mpr ⟨hasA, hasB⟩) source
    simp only [bind_apply, drawn, pure_apply]
  · have first := drawCuts_yields hasA source
    have second := drawCuts_yields hasB (Cuts.draw a.size source).2
    simp only [bind_apply, first, second, pure_apply]

theorem attemptPair_yields :
    (attemptPair crossover a b : Checked ρ (Program × Program)).Yields
      (crossover.attemptPair a b) := by
  intro source
  obtain ⟨first, second⟩ := crossover.draw_exchanges hasA hasB source
  simp only [attemptPair, bind_apply, draw_yields crossover hasA hasB source, exchange_eq first,
    exchange_eq second, pure_apply]
  rfl

theorem attemptFirst_yields :
    (attemptFirst crossover a b : Checked ρ Program).Yields (crossover.attemptFirst a b) := by
  intro source
  obtain ⟨first, -⟩ := crossover.draw_exchanges hasA hasB source
  simp only [attemptFirst, bind_apply, draw_yields crossover hasA hasB source, exchange_eq first,
    pure_apply]
  rfl

theorem crossPair_yields :
    (crossPair crossover a b : Checked ρ (Program × Program)).Yields (crossover.crossPair a b) := by
  intro source
  have searched := retry_yields (attemptPair_yields (ρ := ρ) crossover hasA hasB)
    (fun (childA, childB) => childA.fits crossover.limit && childB.fits crossover.limit)
      crossover.settings.tries source
  simp only [crossPair, bind_apply, searched, pure_apply]
  rfl

theorem crossOne_yields :
    (crossOne crossover a b : Checked ρ Program).Yields (crossover.crossOne a b) := by
  intro source
  have searched := retry_yields (attemptFirst_yields (ρ := ρ) crossover hasA hasB)
    (fun child => child.fits crossover.limit) crossover.settings.tries source
  simp only [crossOne, bind_apply, searched, pure_apply]
  rfl

end Present

variable (a b : Program)

theorem cross_yields :
    (cross crossover a b : Checked ρ (Program × Program)).Yields (crossover.cross a b) := by
  intro source
  unfold cross PushLang.TwoPoint.cross
  split
  · rfl
  · rename_i present
    have hasA : 0 < a.size := by omega
    have hasB : 0 < b.size := by omega
    cases crossover.settings.scope with
    | pair => exact crossPair_yields crossover hasA hasB source
    | perParent =>
      have first := crossOne_yields crossover hasA hasB source
      have second := crossOne_yields crossover hasB hasA (crossover.crossOne a b source).2
      simp only [bind_apply, first, second, pure_apply]

theorem crossFirst_yields :
    (crossFirst crossover a b : Checked ρ Program).Yields (crossover.crossFirst a b) := by
  intro source
  unfold crossFirst PushLang.TwoPoint.crossFirst
  split
  · rfl
  · exact crossOne_yields crossover (by omega) (by omega) source

end TwoPoint

end Checked

/-- Single-point crossover of two parents finds the points it cuts at, and passes every check. -/
structure SinglePoint.Safe (ρ : Type) [RandomSource ρ] (settings : SinglePoint) (a b : Program) :
    Prop where
  grafts : 0 < a.size → 0 < b.size → ∀ source : ρ,
    a.Grafts (settings.draw a b source).1.1 b (settings.draw a b source).1.2 ∧
      b.Grafts (settings.draw a b source).1.2 a (settings.draw a b source).1.1
  cross : (Checked.SinglePoint.cross settings a b : Checked ρ (Program × Program)).Yields
    (settings.cross a b)
  crossFirst : (Checked.SinglePoint.crossFirst settings a b : Checked ρ Program).Yields
    (settings.crossFirst a b)

theorem SinglePoint.safe (settings : SinglePoint) (a b : Program) : settings.Safe ρ a b where
  grafts hasA hasB source := settings.draw_grafts hasA hasB source
  cross := Checked.SinglePoint.cross_yields settings a b
  crossFirst := Checked.SinglePoint.crossFirst_yields settings a b

/-- Two-point crossover of two parents finds the segments it cuts out in every attempt, and passes
every check. -/
structure TwoPoint.Safe (ρ : Type) [RandomSource ρ] (crossover : TwoPoint) (a b : Program) :
    Prop where
  exchanges : 0 < a.size → 0 < b.size → ∀ source : ρ,
    a.Exchanges (crossover.draw a b source).1.1 b (crossover.draw a b source).1.2 ∧
      b.Exchanges (crossover.draw a b source).1.2 a (crossover.draw a b source).1.1
  cross : (Checked.TwoPoint.cross crossover a b : Checked ρ (Program × Program)).Yields
    (crossover.cross a b)
  crossFirst : (Checked.TwoPoint.crossFirst crossover a b : Checked ρ Program).Yields
    (crossover.crossFirst a b)

theorem TwoPoint.safe (crossover : TwoPoint) (a b : Program) : crossover.Safe ρ a b where
  exchanges hasA hasB source := crossover.draw_exchanges hasA hasB source
  cross := Checked.TwoPoint.cross_yields crossover a b
  crossFirst := Checked.TwoPoint.crossFirst_yields crossover a b

end PushLang
