import PushLang.Breeding.TwoPoint
import PushLang.Proofs.Random.Script

/-! Attempts at two-point crossover on a script. Each attempt reads a group of draws of its own, all
of one length, so that the place of its draws does not depend on how the attempts before it came
out. -/

namespace PushLang

/-- How a search through numbered attempts ends, and how many it makes: it stops with the first good
one, or else makes them all. -/
inductive Search (good : Nat → Prop) (tries : Nat) : Option Nat → Nat → Prop where
  | found {index : Nat} (within : index < tries) (isGood : good index)
      (first : ∀ earlier, earlier < index → ¬ good earlier) :
        Search good tries (some index) (index + 1)
  | exhausted (absent : ∀ index, index < tries → ¬ good index) : Search good tries none tries

namespace Search

variable {good : Nat → Prop} {tries : Nat}

theorem head (isGood : good 0) : Search good (tries + 1) (some 0) 1 :=
  .found (Nat.succ_pos tries) isGood fun earlier before => absurd before (Nat.not_lt_zero earlier)

theorem tail (bad : ¬ good 0) {found : Option Nat} {made : Nat}
    (later : Search (fun index => good (index + 1)) tries found made) :
    Search good (tries + 1) (found.map (· + 1)) (made + 1) := by
  cases later with
  | found within isGood first =>
    refine .found (Nat.succ_lt_succ within) isGood fun earlier before => ?_
    cases earlier with
    | zero => exact bad
    | succ earlier => exact first earlier (Nat.lt_of_succ_lt_succ before)
  | exhausted absent =>
    refine .exhausted fun index within => ?_
    cases index with
    | zero => exact bad
    | succ index => exact absent index (Nat.lt_of_succ_lt_succ within)

theorem unique {found other : Option Nat} {made count : Nat} (search : Search good tries found made)
    (again : Search good tries other count) : found = other ∧ made = count := by
  cases search with
  | @found index within isGood first =>
    cases again with
    | @found least _ least_good least_first =>
      rcases Nat.lt_trichotomy index least with before | rfl | before
      · exact absurd isGood (least_first index before)
      · exact ⟨rfl, rfl⟩
      · exact absurd least_good (first least before)
    | exhausted absent => exact absurd isGood (absent index within)
  | exhausted absent =>
    cases again with
    | @found least within isGood _ => exact absurd isGood (absent least within)
    | exhausted _ => exact ⟨rfl, rfl⟩

end Search

/-- A retry is a search, where the states between the attempts and their results are known
beforehand. -/
theorem retry_search {ρ α : Type} {attempt : ρ → α × ρ} (good : α → Bool) (results : Nat → α)
    (states : Nat → ρ)
    (each : ∀ index, attempt (states index) = (results index, states (index + 1))) (tries : Nat) :
    ∃ found made, Search (fun index => good (results index) = true) tries found made ∧
      retry attempt good tries (states 0) = (found.map results, states made) := by
  induction tries generalizing results states with
  | zero =>
    exact ⟨none, 0, .exhausted fun index within => absurd within (Nat.not_lt_zero index), rfl⟩
  | succ tries ih =>
    by_cases first : good (results 0) = true
    · refine ⟨some 0, 1, .head first, ?_⟩
      simp only [retry, each, if_pos first, Option.map_some]
    · obtain ⟨found, made, search, later⟩ :=
        ih (fun index => results (index + 1)) (fun index => states (index + 1)) fun index =>
          each (index + 1)
      refine ⟨found.map (· + 1), made + 1, search.tail first, ?_⟩
      simp only [retry, each, if_neg first, later, Option.map_map]
      rfl

namespace TwoPoint

/-- The draws that an attempt takes: the ends of one segment in each parent, or those of one for
both. -/
def groupLength (crossover : TwoPoint) : Nat := if crossover.settings.homologous then 2 else 4

/-- The cuts that two draws of a script stand for, in either order: the segment goes from the
smaller one to the larger one. -/
def cutsAhead (script : Script) (place bound : Nat) : Cuts where
  low := min (script.ahead place bound) (script.ahead (place + 1) bound)
  high := max (script.ahead place bound) (script.ahead (place + 1) bound)

/-- The cuts that the next group of draws stands for. -/
def nextCuts (crossover : TwoPoint) (a b : Program) (script : Script) : Cuts × Cuts :=
  if crossover.settings.homologous then
    let cuts := cutsAhead script 0 (min a.size b.size)
    (cuts, cuts)
  else (cutsAhead script 0 a.size, cutsAhead script 2 b.size)

/-- The children exchanged at the cuts of the group of draws with a number. -/
def children (crossover : TwoPoint) (a b : Program) (script : Script) (number : Nat) :
    Program × Program :=
  let (cutsA, cutsB) := crossover.nextCuts a b (script.advance (crossover.groupLength * number))
  (a.exchange cutsA b cutsB, b.exchange cutsB a cutsA)

variable (crossover : TwoPoint) (a b : Program) (script : Script)

theorem draw_eq :
    crossover.draw a b script =
      (crossover.nextCuts a b script, script.advance crossover.groupLength) := by
  cases common : crossover.settings.homologous with
  | true =>
    simp [draw, nextCuts, cutsAhead, groupLength, common, Cuts.draw, Cuts.ordered, Script.below_eq]
  | false =>
    simp [draw, nextCuts, cutsAhead, groupLength, common, Cuts.draw, Cuts.ordered, Script.below_eq]

private theorem advance_group (number : Nat) :
    (script.advance (crossover.groupLength * number)).advance crossover.groupLength =
      script.advance (crossover.groupLength * (number + 1)) := by
  rw [Script.advance_advance, Nat.mul_succ]

theorem attemptPair_eq (number : Nat) :
    crossover.attemptPair a b (script.advance (crossover.groupLength * number)) =
      (crossover.children a b script number,
        script.advance (crossover.groupLength * (number + 1))) := by
  simp only [attemptPair, draw_eq, children, advance_group]

theorem attemptFirst_eq (number : Nat) :
    crossover.attemptFirst a b (script.advance (crossover.groupLength * number)) =
      ((crossover.children a b script number).1,
        script.advance (crossover.groupLength * (number + 1))) := by
  simp only [attemptFirst, draw_eq, children, advance_group]

theorem crossPair_search :
    ∃ found made,
      Search (fun number => (crossover.children a b script number).1.fits crossover.limit ∧
          (crossover.children a b script number).2.fits crossover.limit)
        crossover.settings.tries found made ∧
      crossover.crossPair a b script =
        ((found.map (crossover.children a b script)).getD (a, b),
          script.advance (crossover.groupLength * made)) := by
  obtain ⟨found, made, search, result⟩ := retry_search
    (fun children => children.1.fits crossover.limit && children.2.fits crossover.limit)
    (crossover.children a b script) (fun number => script.advance (crossover.groupLength * number))
    (crossover.attemptPair_eq a b script) crossover.settings.tries
  rw [Nat.mul_zero, Script.advance_zero] at result
  refine ⟨found, made, by simpa only [Bool.and_eq_true] using search, ?_⟩
  simp only [crossPair, result]

theorem crossOne_search :
    ∃ found made,
      Search (fun number => (crossover.children a b script number).1.fits crossover.limit)
        crossover.settings.tries found made ∧
      crossover.crossOne a b script =
        ((found.map fun number => (crossover.children a b script number).1).getD a,
          script.advance (crossover.groupLength * made)) := by
  obtain ⟨found, made, search, result⟩ := retry_search (fun child => child.fits crossover.limit)
    (fun number => (crossover.children a b script number).1)
    (fun number => script.advance (crossover.groupLength * number))
    (crossover.attemptFirst_eq a b script) crossover.settings.tries
  rw [Nat.mul_zero, Script.advance_zero] at result
  refine ⟨found, made, search, ?_⟩
  simp only [crossOne, result]

/-- With both children in each attempt, crossover gives the children of the first attempt in which
both fit, and has taken the draws of that attempt and those before it; where none fits it keeps the
parents and has taken the draws of all attempts. With one child at a time each has a search of its
own: the second starts with the draws after those of the first, with the parents in the other order,
and a child without a fitting attempt gives way to its parent. -/
theorem cross_search (hasA : 0 < a.size) (hasB : 0 < b.size) :
    (crossover.settings.scope = .pair → ∃ found made,
      Search (fun number => (crossover.children a b script number).1.fits crossover.limit ∧
          (crossover.children a b script number).2.fits crossover.limit)
        crossover.settings.tries found made ∧
      crossover.cross a b script =
        ((found.map (crossover.children a b script)).getD (a, b),
          script.advance (crossover.groupLength * made))) ∧
    (crossover.settings.scope = .perParent → ∃ foundA madeA foundB madeB,
      let later := script.advance (crossover.groupLength * madeA)
      Search (fun number => (crossover.children a b script number).1.fits crossover.limit)
        crossover.settings.tries foundA madeA ∧
      Search (fun number => (crossover.children b a later number).1.fits crossover.limit)
        crossover.settings.tries foundB madeB ∧
      crossover.cross a b script =
        (((foundA.map fun number => (crossover.children a b script number).1).getD a,
          (foundB.map fun number => (crossover.children b a later number).1).getD b),
          later.advance (crossover.groupLength * madeB))) := by
  have present : ¬ (a.size = 0 ∨ b.size = 0) := by omega
  constructor
  · intro pair
    obtain ⟨found, made, search, result⟩ := crossover.crossPair_search a b script
    refine ⟨found, made, search, ?_⟩
    simp only [cross, if_neg present, pair, result]
  · intro perParent
    obtain ⟨foundA, madeA, searchA, resultA⟩ := crossover.crossOne_search a b script
    obtain ⟨foundB, madeB, searchB, resultB⟩ :=
      crossover.crossOne_search b a (script.advance (crossover.groupLength * madeA))
    refine ⟨foundA, madeA, foundB, madeB, searchA, searchB, ?_⟩
    simp only [cross, if_neg present, perParent, resultA, resultB]

/-- A script on which the first child fits at once and the second one in its second attempt, while
no attempt gives two children that both fit. The cuts of the first parent are drawn in the reverse
order. -/
theorem cross_search_script :
    let a : Program := [.integer 1, .integer 2, .integer 3]
    let b : Program := [.integer 4, .integer 5, .integer 6]
    let script : Script := { draws := [2, 0, 0, 0, 0, 0, 2, 0] }
    let perParent : TwoPoint := { settings := { tries := 2, scope := .perParent }, limit := 3 }
    let pair : TwoPoint := { settings := { tries := 2 }, limit := 3 }
    0 < a.size ∧ 0 < b.size ∧
      perParent.cross a b script =
        (([.integer 4], [.integer 1, .integer 5, .integer 6]), script.advance 12) ∧
      pair.cross a b script = ((a, b), script.advance 8) := by
  intro a b script perParent pair
  have hasA : 0 < a.size := by decide
  have hasB : 0 < b.size := by decide
  refine ⟨hasA, hasB, ?_, ?_⟩
  · obtain ⟨foundA, madeA, foundB, madeB, searchA, searchB, result⟩ :=
      (perParent.cross_search a b script hasA hasB).2 rfl
    obtain ⟨rfl, rfl⟩ := searchA.unique (.found (show 0 < 2 by decide) (by decide) (by decide))
    obtain ⟨rfl, rfl⟩ := searchB.unique (.found (show 1 < 2 by decide) (by decide) (by decide))
    exact result
  · obtain ⟨found, made, search, result⟩ := (pair.cross_search a b script hasA hasB).1 rfl
    obtain ⟨rfl, rfl⟩ := search.unique (.exhausted (by decide))
    exact result

end TwoPoint

end PushLang
