import PushLang.Proofs.Breeding.Conservation
import PushLang.Proofs.Random.Script

namespace PushLang

variable {ρ : Type} [RandomSource ρ]

theorem Program.graft_graft {a b : Program} {cutA cutB : Nat} (insideA : cutA < a.size)
    (insideB : cutB < b.size) :
    cutA < (a.graft cutA b cutB).size ∧
      (a.graft cutA b cutB).graft cutA (b.graft cutB a cutA) cutB = a := by
  obtain ⟨around, front, atomA, back, rfl, rfl, -⟩ := a.exists_locate? cutA insideA
  obtain ⟨surroundings, before, atomB, after, rfl, rfl, -⟩ := b.exists_locate? cutB insideB
  rw [graft_fill, graft_fill, graft_fill]
  exact ⟨around.offset_add_size_lt front back atomB, rfl⟩

namespace SinglePoint

variable (settings : SinglePoint)

/-- The draws that make two cuts, which are one where both parents are cut at the same point. -/
def cutDraws (cutA cutB : Nat) : List Nat := if settings.homologous then [cutA] else [cutA, cutB]

theorem draw_of_deals {a b : Program} {cutA cutB : Nat} {source later : ρ} (insideA : cutA < a.size)
    (insideB : cutB < b.size) (common : settings.homologous = true → cutA = cutB)
    (dealt : Deals source (settings.cutDraws cutA cutB) later) :
    settings.draw a b source = ((cutA, cutB), later) := by
  unfold cutDraws at dealt
  unfold draw
  split at dealt
  · rename_i homologous
    obtain rfl := common homologous
    cases dealt with
    | cons next rest =>
      cases rest
      rw [if_pos homologous, next _ (Nat.lt_min.mpr ⟨insideA, insideB⟩)]
  · rename_i apart
    cases dealt with
    | cons first rest =>
      cases rest with
      | cons second rest =>
        cases rest
        rw [if_neg apart, first _ insideA]
        simp only [second _ insideB]

theorem cross_eq {a b : Program} {cutA cutB : Nat} {source later : ρ} (insideA : cutA < a.size)
    (insideB : cutB < b.size) (drawn : settings.draw a b source = ((cutA, cutB), later))
    (fitsA : (a.graft cutA b cutB).fits settings.limit)
    (fitsB : (b.graft cutB a cutA).fits settings.limit) :
    settings.cross a b source = ((a.graft cutA b cutB, b.graft cutB a cutA), later) := by
  have present : ¬ (a.size = 0 ∨ b.size = 0) := by omega
  simp only [cross, if_neg present, drawn, child, Program.orParent, fitsA, fitsB, if_true]

/-- Crossover at two cuts, and then of the children at the same cuts, gives the parents back, as
long as all four programs keep to the limit. The second crossover may have draws of its own for the
cuts, and the draws of the first one will do: the cuts lie within the children too, whatever their
sizes. -/
theorem cross_undoes (a b : Program) (cutA cutB : Nat) (insideA : cutA < a.size)
    (insideB : cutB < b.size) (common : settings.homologous = true → cutA = cutB)
    (fitsA : a.fits settings.limit) (fitsB : b.fits settings.limit)
    (fitsChildA : (a.graft cutA b cutB).fits settings.limit)
    (fitsChildB : (b.graft cutB a cutA).fits settings.limit) :
    let childA := a.graft cutA b cutB
    let childB := b.graft cutB a cutA
    (∀ source later : ρ, Deals source (settings.cutDraws cutA cutB) later →
      settings.draw a b source = ((cutA, cutB), later) ∧
        settings.draw childA childB source = ((cutA, cutB), later)) ∧
    ∀ source later again latest : ρ, settings.draw a b source = ((cutA, cutB), later) →
      settings.draw childA childB again = ((cutA, cutB), latest) →
      settings.cross a b source = ((childA, childB), later) ∧
        settings.cross childA childB again = ((a, b), latest) := by
  intro childA childB
  obtain ⟨insideChildA, backA⟩ := Program.graft_graft insideA insideB
  obtain ⟨insideChildB, backB⟩ := Program.graft_graft insideB insideA
  constructor
  · intro source later dealt
    exact ⟨settings.draw_of_deals insideA insideB common dealt,
      settings.draw_of_deals insideChildA insideChildB common dealt⟩
  · intro source later again latest drawn redrawn
    have undone :=
      settings.cross_eq insideChildA insideChildB redrawn (by rwa [backA]) (by rwa [backB])
    rw [backA, backB] at undone
    exact ⟨settings.cross_eq insideA insideB drawn fitsChildA fitsChildB, undone⟩

/-- A leaf changes places with a nested program, before and behind which there are other points. -/
theorem cross_undoes_nested :
    let a : Program :=
      [.integer 1, .program [.name "x", .program [.integer 2, .integer 3], .integer 4]]
    let b : Program := [.boolean true, .integer 5, .integer 6]
    let children : Program × Program :=
      ([.integer 1, .program [.name "x", .integer 5, .integer 4]],
        [.boolean true, .program [.integer 2, .integer 3], .integer 6])
    let settings : SinglePoint := { limit := 7 }
    let script : Script := { draws := [3, 1] }
    3 < a.size ∧ 1 < b.size ∧ a.fits 7 ∧ b.fits 7 ∧
      settings.cross a b script = (children, script.advance 2) ∧
      settings.cross children.1 children.2 script = ((a, b), script.advance 2) := by
  intro a b children settings script
  have insideA : 3 < a.size := by decide
  have insideB : 1 < b.size := by decide
  have dealt : Deals script (settings.cutDraws 3 1) (script.advance 2) :=
    script.deals [] [3, 1] rfl rfl
  obtain ⟨draws, undone⟩ :=
    settings.cross_undoes (ρ := Script) a b 3 1 insideA insideB nofun (by decide) (by decide)
    (by decide +kernel) (by decide +kernel)
  obtain ⟨drawn, redrawn⟩ := draws script (script.advance 2) dealt
  obtain ⟨crossed, back⟩ := undone script (script.advance 2) script (script.advance 2) drawn redrawn
  exact ⟨insideA, insideB, by decide, by decide, crossed, back⟩

end SinglePoint

end PushLang
