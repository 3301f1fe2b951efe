import PushLang.Breeding.SinglePoint
import PushLang.Breeding.TwoPoint
import PushLang.Proofs.Program.Segments
import PushLang.Proofs.Program.Walk
import PushLang.Random.Script

namespace PushLang

/-- What every attempt establishes holds of the result of a retry. -/
theorem retry_induction {ρ α : Type} (holds : α → Prop) {attempt : ρ → α × ρ}
    (each : ∀ source, holds (attempt source).1) (good : α → Bool) (tries : Nat) (source : ρ) :
    ∀ result ∈ (retry attempt good tries source).1, holds result := by
  induction tries generalizing source with
  | zero =>
    intro result present
    simp [retry] at present
  | succ tries ih =>
    intro result present
    simp only [retry] at present
    split at present
    · obtain rfl := Option.mem_some_iff.mp present
      exact each source
    · exact ih _ result present

variable {ρ : Type} [RandomSource ρ]

/-- Two pairs of programs made of the same parts: the same leaves, each as often, and as many nested
programs. -/
structure SameParts (children parents : Program × Program) : Prop where
  leaves : (children.1.leaves ++ children.2.leaves).Perm (parents.1.leaves ++ parents.2.leaves)
  nestedPoints : children.1.nestedPoints + children.2.nestedPoints =
    parents.1.nestedPoints + parents.2.nestedPoints

namespace SameParts

theorem refl (parents : Program × Program) : SameParts parents parents := ⟨.refl _, rfl⟩

/-- Two runs that change places, each taking over the surroundings of the other, keep the parts. -/
theorem of_fill (around surroundings : Surroundings)
    (front run back before taken after : List Atom) :
    SameParts (around.fill (front ++ taken ++ back), surroundings.fill (before ++ run ++ after))
      (around.fill (front ++ run ++ back), surroundings.fill (before ++ taken ++ after)) := by
  constructor
  · rw [List.perm_iff_count]
    intro leaf
    simp only [List.count_append, Surroundings.count_leaves_fill _ (_ ++ _), Program.leaves_append]
    omega
  · simp only [Surroundings.nestedPoints_fill _ (_ ++ _), Program.nestedPoints_append]
    omega

end SameParts

theorem Program.exchange_eq_self {program donor : Program} {cuts donorCuts : Cuts}
    (missing : program.cutSegment? cuts = none ∨ donor.cutSegment? donorCuts = none) :
    program.exchange cuts donor donorCuts = program := by
  unfold exchange
  split
  · rename_i target found
    rcases missing with none | none
    · cases target.symm.trans none
    · cases found.symm.trans none
  · rfl

/-- A graft puts an atom of the donor into the surroundings of another atom. -/
theorem Program.graft_fill (around surroundings : Surroundings)
    (front back before after : List Atom) (old new : Atom) :
    (around.fill (front ++ old :: back)).graft (around.offset + size front)
        (surroundings.fill (before ++ new :: after)) (surroundings.offset + size before) =
      around.fill (front ++ new :: back) := by
  simp only [graft, surroundings.extract?_fill, Option.bind_some, Option.getD_some,
    replace?_of_locate? (around.locate?_fill front back old)]

namespace TwoPoint

theorem exchange_sameParts (a b : Program) (cutsA cutsB : Cuts) :
    SameParts (a.exchange cutsA b cutsB, b.exchange cutsB a cutsA) (a, b) := by
  cases foundA : a.cutSegment? cutsA with
  | none =>
    rw [Program.exchange_eq_self (.inl foundA), Program.exchange_eq_self (.inr foundA)]
    exact .refl _
  | some segmentA =>
    cases foundB : b.cutSegment? cutsB with
    | none =>
      rw [Program.exchange_eq_self (.inr foundB), Program.exchange_eq_self (.inl foundB)]
      exact .refl _
    | some segmentB =>
      have childA :
          a.exchange cutsA b cutsB = (a.splice segmentA segmentB.atoms).toOption.getD a := by
        simp only [Program.exchange, foundA, foundB]
      have childB :
          b.exchange cutsB a cutsA = (b.splice segmentB segmentA.atoms).toOption.getD b := by
        simp only [Program.exchange, foundA, foundB]
      obtain ⟨around, front, -, -, back, liesA, -⟩ := Program.exists_liesIn foundA
      obtain ⟨surroundings, before, -, -, after, liesB, -⟩ := Program.exists_liesIn foundB
      have parts :=
        SameParts.of_fill around surroundings front segmentA.atoms back before segmentB.atoms after
      rw [← liesA.program_eq, ← liesB.program_eq] at parts
      rw [childA, childB, liesA.splice_eq, liesB.splice_eq]
      exact parts

theorem attemptPair_sameParts (crossover : TwoPoint) (a b : Program) (source : ρ) :
    SameParts (crossover.attemptPair a b source).1 (a, b) :=
  exchange_sameParts a b _ _

theorem crossPair_sameParts (crossover : TwoPoint) (a b : Program) (source : ρ) :
    SameParts (crossover.crossPair a b source).1 (a, b) := by
  have attempts := retry_induction (fun children => SameParts children (a, b))
    (crossover.attemptPair_sameParts a b)
    (fun children => children.1.fits crossover.limit && children.2.fits crossover.limit)
      crossover.settings.tries source
  simp only [crossPair]
  cases outcome : (retry (crossover.attemptPair a b)
    (fun children => children.1.fits crossover.limit && children.2.fits crossover.limit)
    crossover.settings.tries source).1 with
  | none => exact .refl _
  | some children => exact attempts children outcome

end TwoPoint

namespace SinglePoint

/-- Both children keep to the limit, so that neither gives way to its parent. -/
def KeepsChildren (settings : SinglePoint) (a b : Program) (source : ρ) : Prop :=
  let (cutA, cutB) := (settings.draw a b source).1
  (a.graft cutA b cutB).fits settings.limit ∧ (b.graft cutB a cutA).fits settings.limit

theorem draw_lt (settings : SinglePoint) (a b : Program) (source : ρ) (hasA : 0 < a.size)
    (hasB : 0 < b.size) :
    (settings.draw a b source).1.1 < a.size ∧ (settings.draw a b source).1.2 < b.size := by
  simp only [draw]
  split
  · have common : (below (min a.size b.size) source).1 < min a.size b.size :=
      RandomSource.below_lt _ source (by omega)
    exact ⟨Nat.lt_of_lt_of_le common (Nat.min_le_left _ _),
      Nat.lt_of_lt_of_le common (Nat.min_le_right _ _)⟩
  · exact ⟨RandomSource.below_lt _ _ hasA, RandomSource.below_lt _ _ hasB⟩

theorem graft_sameParts (a b : Program) (cutA cutB : Nat) (insideA : cutA < a.size)
    (insideB : cutB < b.size) :
    SameParts (a.graft cutA b cutB, b.graft cutB a cutA) (a, b) := by
  obtain ⟨around, front, atomA, back, rfl, rfl, -⟩ := Program.exists_locate? a cutA insideA
  obtain ⟨surroundings, before, atomB, after, rfl, rfl, -⟩ := Program.exists_locate? b cutB insideB
  rw [Program.graft_fill, Program.graft_fill]
  simpa using SameParts.of_fill around surroundings front [atomA] back before [atomB] after

theorem cross_of_keepsChildren (settings : SinglePoint) (a b : Program) (source : ρ)
    (hasA : a.size ≠ 0) (hasB : b.size ≠ 0) (kept : settings.KeepsChildren a b source) :
    (settings.cross a b source).1 =
      let (cutA, cutB) := (settings.draw a b source).1
      (a.graft cutA b cutB, b.graft cutB a cutA) := by
  obtain ⟨fitsA, fitsB⟩ := kept
  simp [cross, hasA, hasB, child, Program.orParent, fitsA, fitsB]

end SinglePoint

/-- The children of two-point crossover with both children in each attempt are made of the parts of
the parents, and so are those of single-point crossover where no child gives way to its parent. -/
theorem cross_sameParts (a b : Program) (source : ρ) :
    (∀ crossover : TwoPoint, crossover.settings.scope = .pair →
      SameParts (crossover.cross a b source).1 (a, b)) ∧
    (∀ settings : SinglePoint, (a.size ≠ 0 → b.size ≠ 0 → settings.KeepsChildren a b source) →
      SameParts (settings.cross a b source).1 (a, b)) := by
  constructor
  · intro crossover pair
    simp only [TwoPoint.cross, pair]
    split
    · exact .refl _
    · exact crossover.crossPair_sameParts a b source
  · intro settings kept
    by_cases empty : a.size = 0 ∨ b.size = 0
    · simp only [SinglePoint.cross, if_pos empty]
      exact .refl _
    · obtain ⟨hasA, hasB⟩ := not_or.mp empty
      rw [settings.cross_of_keepsChildren a b source hasA hasB (kept hasA hasB)]
      have inside := settings.draw_lt a b source (by omega) (by omega)
      exact SinglePoint.graft_sameParts a b _ _ inside.1 inside.2

/-- Both kinds of crossover on the same parents. The ends of the first segment are drawn in reverse,
and it stops at the end of the nested program it starts in. -/
theorem cross_sameParts_reversed :
    let a : Program := [.integer 1, .program [.name "x", .boolean true], .integer 2]
    let b : Program := [.program [.integer 3], .integer 4]
    let source : Script := { draws := [4, 2, 0, 1] }
    let twoPoint : TwoPoint := { limit := 6 }
    let singlePoint : SinglePoint := { limit := 8 }
    (twoPoint.cross a b source).1 =
        ([.integer 1, .program [.program [.integer 3]], .integer 2],
          [.name "x", .boolean true, .integer 4]) ∧
      SameParts (twoPoint.cross a b source).1 (a, b) ∧ singlePoint.KeepsChildren a b source ∧
      SameParts (singlePoint.cross a b source).1 (a, b) := by
  intro a b source twoPoint singlePoint
  have kept : singlePoint.KeepsChildren a b source := by
    simp only [SinglePoint.KeepsChildren]
    decide +kernel
  refine ⟨by decide +kernel, (cross_sameParts a b source).1 twoPoint rfl, kept, ?_⟩
  exact (cross_sameParts a b source).2 singlePoint fun _ _ => kept

end PushLang
