import PushLang.Breeding.SinglePoint
import PushLang.Proofs.Breeding.Attempts

namespace PushLang

/-- Attempts whose results are those of others in another form stop where the others stop, and what
they draw is the same. -/
theorem retry_map {ρ α β : Type} (change : α → β) {attempt : ρ → α × ρ} {changed : ρ → β × ρ}
    (each : ∀ source, changed source = (change (attempt source).1, (attempt source).2))
    (good : α → Bool) (fine : β → Bool) (agrees : ∀ result, fine (change result) = good result)
    (tries : Nat) (source : ρ) :
    retry changed fine tries source =
      ((retry attempt good tries source).1.map change, (retry attempt good tries source).2) := by
  induction tries generalizing source with
  | zero => rfl
  | succ tries ih =>
    obtain ⟨result, later, attempted⟩ : ∃ result later, attempt source = (result, later) :=
      ⟨_, _, rfl⟩
    have same : changed source = (change result, later) := by rw [each, attempted]
    simp only [retry, attempted, same, agrees]
    split
    · rfl
    · exact ih later

variable {ρ : Type} [RandomSource ρ]

namespace SinglePoint

variable {settings : SinglePoint}

/-- One cut serves both parents, and their order does not matter to its draw. -/
theorem exists_common_cut (homologous : settings.homologous = true) (a b : Program) (source : ρ) :
    ∃ cut later, settings.draw a b source = ((cut, cut), later) ∧
      settings.draw b a source = ((cut, cut), later) := by
  refine ⟨(below (min a.size b.size) source).1, (below (min a.size b.size) source).2, ?_, ?_⟩
  · simp only [draw, homologous, if_true]
  · simp only [draw, homologous, if_true, Nat.min_comm b.size]

theorem cross_comm (homologous : settings.homologous = true) (a b : Program) (source : ρ) :
    settings.cross b a source =
      ((settings.cross a b source).1.swap, (settings.cross a b source).2) := by
  by_cases empty : a.size = 0 ∨ b.size = 0
  · simp only [cross, if_pos empty, if_pos empty.symm]
    rfl
  · obtain ⟨cut, later, drawn, redrawn⟩ := exists_common_cut homologous a b source
    simp only [cross, if_neg empty, if_neg (mt Or.symm empty), drawn, redrawn]
    rfl

end SinglePoint

namespace TwoPoint

variable {crossover : TwoPoint}

/-- The same cuts serve both parents, and their order does not matter to the draws. -/
theorem exists_common_cuts (homologous : crossover.settings.homologous = true) (a b : Program)
    (source : ρ) :
    ∃ cuts later, crossover.draw a b source = ((cuts, cuts), later) ∧
      crossover.draw b a source = ((cuts, cuts), later) := by
  refine ⟨(Cuts.draw (min a.size b.size) source).1,
    (Cuts.draw (min a.size b.size) source).2, ?_, ?_⟩
  · simp only [draw, homologous, if_true]
  · simp only [draw, homologous, if_true, Nat.min_comm b.size]

theorem attemptPair_comm (homologous : crossover.settings.homologous = true) (a b : Program)
    (source : ρ) :
    crossover.attemptPair b a source =
      ((crossover.attemptPair a b source).1.swap, (crossover.attemptPair a b source).2) := by
  obtain ⟨cuts, later, drawn, redrawn⟩ := exists_common_cuts homologous a b source
  simp only [attemptPair, drawn, redrawn]
  rfl

/-- Both children have to fit, whichever of them comes first, so that the same attempt counts. -/
theorem crossPair_comm (homologous : crossover.settings.homologous = true) (a b : Program)
    (source : ρ) :
    crossover.crossPair b a source =
      ((crossover.crossPair a b source).1.swap, (crossover.crossPair a b source).2) := by
  have retried := retry_map Prod.swap (attemptPair_comm homologous a b)
    (fun children => children.1.fits crossover.limit && children.2.fits crossover.limit)
    (fun children => children.1.fits crossover.limit && children.2.fits crossover.limit)
    (fun children => Bool.and_comm _ _) crossover.settings.tries source
  simp only [crossPair, retried]
  exact Prod.ext (Option.getD_map Prod.swap (a, b) _) rfl

theorem cross_comm (homologous : crossover.settings.homologous = true)
    (pair : crossover.settings.scope = .pair) (a b : Program) (source : ρ) :
    crossover.cross b a source =
      ((crossover.cross a b source).1.swap, (crossover.cross a b source).2) := by
  by_cases empty : a.size = 0 ∨ b.size = 0
  · simp only [cross, if_pos empty, if_pos empty.symm]
    rfl
  · simp only [cross, if_neg empty, if_neg (mt Or.symm empty), pair]
    exact crossPair_comm homologous a b source

end TwoPoint

/-- Parents in the other order get their children in the other order and leave the source in the
same state, whatever the limit, the number of attempts and the draws: in single-point crossover at a
common cut, where each child by itself may give way to its parent, and in two-point crossover at
common cuts with both children in each attempt. -/
theorem cross_symmetric (a b : Program) (source : ρ) :
    (∀ settings : SinglePoint, settings.homologous = true →
      settings.cross b a source =
        ((settings.cross a b source).1.swap, (settings.cross a b source).2)) ∧
    ∀ crossover : TwoPoint, crossover.settings.homologous = true →
      crossover.settings.scope = .pair →
      crossover.cross b a source =
        ((crossover.cross a b source).1.swap, (crossover.cross a b source).2) := by
  constructor
  · intro settings homologous
    exact SinglePoint.cross_comm homologous a b source
  · intro crossover homologous pair
    exact TwoPoint.cross_comm homologous pair a b source

/-- A first child that gives way to its parent, and a first attempt in which only the second child
fits. -/
theorem cross_symmetric_retry :
    let a : Program := [.integer 1, .integer 2, .integer 3, .integer 4]
    let b : Program := [.program [.integer 5, .integer 6], .integer 7]
    let source : Script := { draws := [0, 0, 2, 1] }
    let settings : SinglePoint := { homologous := true, limit := 4 }
    let crossover : TwoPoint := { settings := { homologous := true }, limit := 4 }
    let children : Program × Program :=
      ([.integer 1, .integer 5, .integer 6, .integer 4],
        [.program [.integer 2, .integer 3], .integer 7])
    (settings.cross b a source).1 = ([.integer 1, .integer 7], a) ∧
      (crossover.cross b a source).1 = (children.2, children.1) ∧
        (crossover.cross b a source).2.drawn = 4 := by
  intro a b source settings crossover children
  have single : (settings.cross a b source).1 = (a, [.integer 1, .integer 7]) := by decide +kernel
  have double : (crossover.cross a b source).1 = children := by decide +kernel
  have drawn : (crossover.cross a b source).2.drawn = 4 := by decide +kernel
  obtain ⟨singlePoint, twoPoint⟩ := cross_symmetric a b source
  simp only [singlePoint settings rfl, twoPoint crossover rfl rfl, single, double, drawn]
  exact ⟨rfl, rfl, trivial⟩

end PushLang
