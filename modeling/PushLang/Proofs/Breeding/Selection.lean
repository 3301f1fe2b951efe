import Mathlib.Data.List.Basic
import PushLang.Breeding.Selector
import PushLang.Proofs.Program.Points
import PushLang.Proofs.Random.Script

namespace PushLang

/-- Whether an atom is of a kind, nested programs or leaves. -/
def Atom.isOfKind (nested : Bool) (atom : Atom) : Bool := atom.isProgram == nested

namespace Program

/-- How many points below the root are of a kind. -/
def pointsOfKind (program : Program) (nested : Bool) : Nat :=
  program.preorder.countP (Atom.isOfKind nested)

/-- The cut at the point of a kind that comes after so many others of that kind. -/
structure CutOfKind (program : Program) (nested : Bool) (rank cut : Nat) : Prop where
  inside : cut < program.size
  kind : (program.extract? (cut + 1)).map Atom.isProgram = some nested
  rank : (program.preorder.take cut).countP (Atom.isOfKind nested) = rank

theorem isOfKind_true : Atom.isOfKind true = Atom.isProgram := funext fun _ => beq_true _

theorem isOfKind_false :
    Atom.isOfKind false = fun atom => !atom.isProgram := funext fun _ => beq_false _

theorem pointsOfKind_true (program : Program) :
    program.pointsOfKind true = program.nestedPoints := by
  rw [pointsOfKind, isOfKind_true, nestedPoints]

theorem pointsOfKind_false (program : Program) :
    program.pointsOfKind false = program.leaves.length := by
  rw [pointsOfKind, isOfKind_false, leaves, List.countP_eq_length_filter]

theorem pointsOfKind_add (program : Program) :
    program.pointsOfKind true + program.pointsOfKind false = program.size := by
  rw [← length_preorder, List.length_eq_countP_add_countP (Atom.isOfKind true)]
  unfold pointsOfKind
  congr 2
  funext atom
  unfold Atom.isOfKind
  cases atom.isProgram <;> rfl

private theorem map_filter_zip (test : Atom → Bool) (points : List Atom) (start : Nat) :
    ((((List.range' (start + 1) points.length).zip points).filter fun (_, atom) => test atom).map
      fun (index, _) => index - 1) =
      points.findIdxs test start := by
  induction points generalizing start with
  | nil => rfl
  | cons atom points ih =>
    simp only [List.length_cons, List.range'_succ, List.zip_cons_cons, List.filter_cons,
      List.findIdxs_cons]
    split
    · rw [List.map_cons, ih, Nat.add_sub_cancel]
    · exact ih (start + 1)

/-- The cuts at atoms of some sort are their positions in the list of points. -/
theorem cutsWhere_eq_findIdxs (program : Program) (test : Atom → Bool) :
    program.cutsWhere test = program.preorder.findIdxs test := by
  have numbered :
      program.indexedPoints = (List.range' 1 program.preorder.length).zip program.preorder := by
    rw [length_preorder]
    exact program.take_start 0
  rw [cutsWhere, numbered]
  exact map_filter_zip test program.preorder 0

theorem cutOfKind_findIdxNth {program : Program} {nested : Bool} {rank : Nat}
    (inside : rank < program.pointsOfKind nested) :
    program.CutOfKind nested rank (program.preorder.findIdxNth (Atom.isOfKind nested) rank) := by
  have within := List.findIdxNth_lt_length_of_lt_countP inside
  refine ⟨?_, ?_, ?_⟩
  · rwa [← length_preorder]
  · rw [extract?_succ, List.getElem?_eq_getElem within, Option.map_some]
    have own : Atom.isOfKind nested program.preorder[program.preorder.findIdxNth
        (Atom.isOfKind nested) rank] = true :=
      List.pos_findIdxNth_getElem
    exact congrArg some (eq_of_beq own)
  · rw [← List.countPBefore_eq_countP_take]
    exact List.countPBefore_findIdxNth_of_lt_countP inside

theorem exists_findIdxNth {program : Program} {nested : Bool} {cut : Nat}
    (kind : (program.extract? (cut + 1)).map Atom.isProgram = some nested) :
    ∃ rank < program.pointsOfKind nested,
      program.preorder.findIdxNth (Atom.isOfKind nested) rank = cut := by
  rw [extract?_succ] at kind
  obtain ⟨atom, found, same⟩ := Option.map_eq_some_iff.mp kind
  obtain ⟨within, rfl⟩ := List.getElem?_eq_some_iff.mp found
  have own : Atom.isOfKind nested program.preorder[cut] = true := beq_iff_eq.mpr same
  exact ⟨_, List.countPBefore_lt_countP_of_lt_length_of_pos own,
    List.findIdxNth_countPBefore_of_lt_length_of_pos own⟩

end Program

namespace Selector

variable {ρ : Type} [RandomSource ρ]

/-- Nested programs are selected if there are any and either they are wanted or there is nothing
else. -/
theorem pool_eq (program : Program) (wantNested : Bool) :
    pool program wantNested =
      if 0 < program.nestedPoints ∧ (wantNested = true ∨ program.leaves = []) then
        program.preorder.findIdxs (Atom.isOfKind true)
      else program.preorder.findIdxs (Atom.isOfKind false) := by
  have empty (nested : Bool) :
      (program.preorder.findIdxs (Atom.isOfKind nested)).isEmpty = true ↔
        program.pointsOfKind nested = 0 := by
    rw [List.isEmpty_iff_length_eq_zero, List.length_findIdxs, Program.pointsOfKind]
  have noLeaves : program.pointsOfKind false = 0 ↔ program.leaves = [] := by
    rw [program.pointsOfKind_false, List.length_eq_zero_iff]
  have noNested : program.pointsOfKind true = 0 ↔ ¬ 0 < program.nestedPoints := by
    rw [program.pointsOfKind_true]
    omega
  simp only [pool, Program.cutsWhere_eq_findIdxs, ← Program.isOfKind_false]
  simp only [← Program.isOfKind_true]
  refine if_congr ?_ rfl rfl
  simp only [Bool.and_eq_true, Bool.or_eq_true, Bool.not_eq_true', ← Bool.not_eq_true, empty,
    noLeaves, noNested, not_not]
  exact and_comm

theorem exists_pool_eq {program : Program} (positive : 0 < program.size) (wantNested : Bool) :
    ∃ nested, (nested = true ↔
      0 < program.nestedPoints ∧ (wantNested = true ∨ program.leaves = [])) ∧
      pool program wantNested = program.preorder.findIdxs (Atom.isOfKind nested) ∧
        0 < program.pointsOfKind nested := by
  have total := program.pointsOfKind_add
  have nestedPoints := program.pointsOfKind_true
  by_cases chosen : 0 < program.nestedPoints ∧ (wantNested = true ∨ program.leaves = [])
  · exact ⟨true, by simp only [chosen, and_self],
      (pool_eq program wantNested).trans (if_pos chosen), by omega⟩
  · refine ⟨false, by simp only [chosen, Bool.false_eq_true],
      (pool_eq program wantNested).trans (if_neg chosen), ?_⟩
    by_cases several : 0 < program.nestedPoints
    · rw [program.pointsOfKind_false]
      exact List.length_pos_iff.mpr fun none => chosen ⟨several, .inr none⟩
    · omega

/-- The draw below the number of points of the kind is the rank of the point. -/
theorem select_byKind_of_pool {program : Program} {nestedProbability : Binary32} {source : ρ}
    {nested : Bool}
    (pooled : pool program ((unit source).1 < nestedProbability) =
      program.preorder.findIdxs (Atom.isOfKind nested))
    (positive : 0 < program.pointsOfKind nested) :
    (byKind nestedProbability).select program source =
      (program.preorder.findIdxNth (Atom.isOfKind nested)
        (below (program.pointsOfKind nested) (unit source).2).1,
        (below (program.pointsOfKind nested) (unit source).2).2) := by
  have points :
      (program.preorder.findIdxs (Atom.isOfKind nested)).length = program.pointsOfKind nested :=
    List.length_findIdxs
  have listed : (below (program.pointsOfKind nested) (unit source).2).1 <
      (program.preorder.findIdxs (Atom.isOfKind nested)).length := by
    rw [points]
    exact RandomSource.below_lt _ _ positive
  have several : (program.preorder.findIdxs (Atom.isOfKind nested)).isEmpty = false := by
    rw [List.isEmpty_eq_false_iff, ← List.length_pos_iff, points]
    exact positive
  simp only [select, pooled, several, Bool.false_eq_true, if_false, points]
  rw [List.getD_eq_getElem?_getD, List.getElem?_eq_getElem listed, Option.getD_some,
    List.getElem_findIdxs_eq_findIdxNth]

/-- Selection by kind takes a nested program if there is one and either the unit draw says so or
there is no leaf. The draw after that is the rank of the point among those of its kind, so each of
them is selected by some draw. -/
theorem byKind_selects (program : Program) (positive : 0 < program.size)
    (nestedProbability : Binary32) (source : ρ) :
    ∃ nested,
      (nested = true ↔
      0 < program.nestedPoints ∧ ((unit source).1 < nestedProbability ∨ program.leaves = [])) ∧
      0 < program.pointsOfKind nested ∧
      (∃ cut, (byKind nestedProbability).select program source =
          (cut, (below (program.pointsOfKind nested) (unit source).2).2) ∧
        program.CutOfKind nested (below (program.pointsOfKind nested) (unit source).2).1 cut) ∧
      ∀ cut, (program.extract? (cut + 1)).map Atom.isProgram = some nested →
        ∃ draw < program.pointsOfKind nested,
          (∀ other later : ρ, (unit other).1 = (unit source).1 →
            below (program.pointsOfKind nested) (unit other).2 = (draw, later) →
              (byKind nestedProbability).select program other = (cut, later)) ∧
          ((byKind nestedProbability).select program
            ({ draws := [draw], units := [(unit source).1] } : Script)).1 = cut := by
  obtain ⟨nested, chosen, pooled, points⟩ :=
    exists_pool_eq positive ((unit source).1 < nestedProbability)
  rw [decide_eq_true_iff] at chosen
  refine ⟨nested, chosen, points, ⟨_, select_byKind_of_pool pooled points, ?_⟩, fun cut kind => ?_⟩
  · exact Program.cutOfKind_findIdxNth (RandomSource.below_lt _ _ points)
  · obtain ⟨rank, inside, rfl⟩ := Program.exists_findIdxNth kind
    refine ⟨rank, inside, fun other later same drawn => ?_, ?_⟩
    · rw [← same] at pooled
      rw [select_byKind_of_pool pooled points, drawn]
    · let script : Script := { draws := [rank], units := [(unit source).1] }
      cases Script.deals (unit script).2 [] [rank] rfl rfl with
      | cons next =>
        have selected : (byKind nestedProbability).select program script = _ :=
          select_byKind_of_pool pooled points
        rw [next _ inside] at selected
        exact congrArg Prod.fst selected

/-- In `( 1 ( 2 ( 3 ) ) 4 )` the second nested program is the fourth point. -/
theorem byKind_selects_innermost :
    let program : Program := [.integer 1, .program [.integer 2, .program [.integer 3]], .integer 4]
    let half : Script := { draws := [1], units := [0.5] }
    0 < program.size ∧ program.CutOfKind true 1 3 ∧ ((byKind 0.9).select program half).1 = 3 ∧
      ∃ draw < 2,
        ((byKind 0.9).select program ({ draws := [draw], units := [0.5] } : Script)).1 = 1 := by
  intro program half
  have positive : 0 < program.size := by decide
  obtain ⟨nested, chosen, -, ⟨cut, selected, kind⟩, all⟩ := byKind_selects program positive 0.9 half
  have wanted : (unit half).1 < (0.9 : Binary32) := by decide
  obtain rfl : nested = true := chosen.mpr ⟨by decide, .inl wanted⟩
  have points : program.pointsOfKind true = 2 := by decide
  obtain ⟨draw, inside, -, reached⟩ := all 1 (by decide)
  have third : ((byKind 0.9).select program half).1 = 3 := by decide
  obtain rfl : cut = 3 := by rwa [selected] at third
  have last : (below (program.pointsOfKind true) (unit half).2).1 = 1 := by rw [points]; rfl
  rw [last] at kind
  exact ⟨positive, kind, third, draw, by rwa [points] at inside, reached⟩

end Selector

end PushLang
