import Mathlib.Logic.Relation
import PushLang.Breeding.Mutation
import PushLang.Breeding.SinglePoint
import PushLang.Breeding.TwoPoint
import PushLang.Proofs.Generation.Code

namespace PushLang

variable {ρ : Type} [RandomSource ρ]

omit [RandomSource ρ] in
/-- Where a retry without a good result gives way to something good, the outcome is good. -/
theorem good_retry_getD {α : Type} (attempt : ρ → α × ρ) (good : α → Bool) (fallback : α)
    (kept : good fallback = true) (tries : Nat) (source : ρ) :
    good ((retry attempt good tries source).1.getD fallback) = true := by
  induction tries generalizing source with
  | zero => exact kept
  | succ tries ih =>
    simp only [retry]
    split
    · assumption
    · exact ih _

theorem Program.orParent_fits {parent : Program} {limit : Nat} (fits : parent.fits limit)
    (child : Program) :
    (child.orParent parent limit).fits limit := by
  unfold orParent
  split
  · assumption
  · exact fits

namespace SinglePoint

variable (settings : SinglePoint) {a b : Program} (source : ρ)

theorem cross_fits (fitsA : a.fits settings.limit) (fitsB : b.fits settings.limit) :
    (settings.cross a b source).1.1.fits settings.limit ∧
      (settings.cross a b source).1.2.fits settings.limit := by
  unfold cross
  split
  · exact ⟨fitsA, fitsB⟩
  · exact ⟨Program.orParent_fits fitsA _, Program.orParent_fits fitsB _⟩

theorem crossFirst_fits (fitsA : a.fits settings.limit) :
    (settings.crossFirst a b source).1.fits settings.limit := by
  unfold crossFirst
  split
  · exact fitsA
  · exact Program.orParent_fits fitsA _

end SinglePoint

namespace TwoPoint

variable (crossover : TwoPoint) {a b : Program} (source : ρ)

theorem crossPair_fits (fitsA : a.fits crossover.limit) (fitsB : b.fits crossover.limit) :
    (crossover.crossPair a b source).1.1.fits crossover.limit ∧
      (crossover.crossPair a b source).1.2.fits crossover.limit := by
  have kept : (a.fits crossover.limit && b.fits crossover.limit) = true := by
    rw [fitsA, fitsB, Bool.and_self]
  have good := good_retry_getD (crossover.attemptPair a b)
    (fun children => children.1.fits crossover.limit && children.2.fits crossover.limit) (a, b) kept
    crossover.settings.tries source
  exact Bool.and_eq_true_iff.mp good

theorem crossOne_fits (fitsA : a.fits crossover.limit) :
    (crossover.crossOne a b source).1.fits crossover.limit :=
  good_retry_getD (crossover.attemptFirst a b)
    (fun child => child.fits crossover.limit) a fitsA crossover.settings.tries
    source

theorem cross_fits (fitsA : a.fits crossover.limit) (fitsB : b.fits crossover.limit) :
    (crossover.cross a b source).1.1.fits crossover.limit ∧
      (crossover.cross a b source).1.2.fits crossover.limit := by
  unfold cross
  split
  · exact ⟨fitsA, fitsB⟩
  · split
    · exact crossover.crossPair_fits source fitsA fitsB
    · exact ⟨crossover.crossOne_fits source fitsA, crossover.crossOne_fits _ fitsB⟩

theorem crossFirst_fits (fitsA : a.fits crossover.limit) :
    (crossover.crossFirst a b source).1.fits crossover.limit := by
  unfold crossFirst
  split
  · exact fitsA
  · exact crossover.crossOne_fits source fitsA

end TwoPoint

namespace Mutation

variable {env : Environment} {parent child : Program}

theorem replaceAt_fits {cut size : Nat} {source rest : ρ}
    (fits : parent.fits env.config.maxPoints)
    (made : replaceAt env parent cut size source = .ok child rest) :
    child.fits env.config.maxPoints := by
  unfold replaceAt at made
  cases replaced : (replacement env size : Draw ρ Atom) source with
  | error cause later =>
    rw [Draw.bind_error replaced] at made
    cases made
  | ok atom later =>
    rw [Draw.bind_ok replaced] at made
    obtain ⟨rfl, -⟩ := EStateM.Result.ok.inj made
    exact Program.orParent_fits fits _

theorem mutate_fits {mutation : Mutation} {selector : Selector} {source rest : ρ}
    (fits : parent.fits env.config.maxPoints)
    (made : mutation.mutate selector env parent source = .ok (.ok child rest)) :
    child.fits env.config.maxPoints := by
  unfold mutate at made
  split at made
  · obtain ⟨rfl, -⟩ := EStateM.Result.ok.inj (Except.ok.inj made)
    exact fits
  · obtain ⟨cut, later, selected⟩ : ∃ cut later, selector.select parent source = (cut, later) :=
      ⟨_, _, rfl⟩
    simp only [selected] at made
    cases sized : mutation.newSize env.config ((parent.pointsAt? (cut + 1)).getD 1) later with
    | error fault =>
      rw [sized] at made
      cases made
    | ok drawn =>
      rw [sized] at made
      exact replaceAt_fits fits (Except.ok.inj made)

end Mutation

/-- One application of an operator to parents of a population, with the common limit and a source in
any state. What it makes joins the population; a mutation that fails makes nothing. -/
inductive Breeds (ρ : Type) [RandomSource ρ] (limit : Nat) (population : List Program) :
    List Program → Prop where
  | singlePoint (settings : SinglePoint) (source : ρ) {a b : Program}
      (common : settings.limit = limit)
      (hasA : a ∈ population) (hasB : b ∈ population) :
      Breeds ρ limit population ((settings.cross a b source).1.1 ::
        (settings.cross a b source).1.2 :: population)
  | singlePointFirst (settings : SinglePoint) (source : ρ) {a b : Program}
      (common : settings.limit = limit)
      (hasA : a ∈ population) (hasB : b ∈ population) :
      Breeds ρ limit population ((settings.crossFirst a b source).1 :: population)
  | twoPoint (crossover : TwoPoint) (source : ρ) {a b : Program} (common : crossover.limit = limit)
      (hasA : a ∈ population) (hasB : b ∈ population) :
      Breeds ρ limit population ((crossover.cross a b source).1.1 ::
        (crossover.cross a b source).1.2 :: population)
  | twoPointFirst (crossover : TwoPoint) (source : ρ) {a b : Program}
      (common : crossover.limit = limit)
      (hasA : a ∈ population) (hasB : b ∈ population) :
      Breeds ρ limit population ((crossover.crossFirst a b source).1 :: population)
  | mutation (mutation : Mutation) (selector : Selector) (env : Environment) (source : ρ)
      {parent child : Program} {rest : ρ}
      (common : env.config.maxPoints = limit) (hasParent : parent ∈ population)
      (made : mutation.mutate selector env parent source = .ok (.ok child rest)) :
      Breeds ρ limit population (child :: population)

theorem Breeds.fits {limit : Nat} {population later : List Program}
    (step : Breeds ρ limit population later) (fits : ∀ program ∈ population, program.fits limit) :
    ∀ program ∈ later, program.fits limit := by
  cases step with
  | singlePoint settings source common hasA hasB =>
    subst common
    obtain ⟨fitsA, fitsB⟩ := settings.cross_fits source (fits _ hasA) (fits _ hasB)
    exact List.forall_mem_cons.mpr ⟨fitsA, List.forall_mem_cons.mpr ⟨fitsB, fits⟩⟩
  | singlePointFirst settings source common hasA hasB =>
    subst common
    exact List.forall_mem_cons.mpr ⟨settings.crossFirst_fits source (fits _ hasA), fits⟩
  | twoPoint crossover source common hasA hasB =>
    subst common
    obtain ⟨fitsA, fitsB⟩ := crossover.cross_fits source (fits _ hasA) (fits _ hasB)
    exact List.forall_mem_cons.mpr ⟨fitsA, List.forall_mem_cons.mpr ⟨fitsB, fits⟩⟩
  | twoPointFirst crossover source common hasA hasB =>
    subst common
    exact List.forall_mem_cons.mpr ⟨crossover.crossFirst_fits source (fits _ hasA), fits⟩
  | mutation settings selector env source common hasParent made =>
    subst common
    exact List.forall_mem_cons.mpr ⟨Mutation.mutate_fits (fits _ hasParent) made, fits⟩

/-- A population in which every program keeps to the limit never gets a program that does not,
whichever operators are applied to its programs, and however often. -/
theorem breeding_fits {limit : Nat} {start final : List Program}
    (fits : ∀ program ∈ start, program.fits limit)
    (run : Relation.ReflTransGen (Breeds ρ limit) start final) :
    ∀ program ∈ final, program.fits limit := by
  induction run with
  | refl => exact fits
  | tail _ step ih => exact step.fits ih

/-- A crossover in which the first child is too large, another one that keeps both parents, and a
mutation. -/
theorem breeding_fits_fallbacks :
    let a : Program := [.integer 1, .integer 2, .integer 3]
    let b : Program := [.program [.integer 4, .integer 5]]
    let mutant : Program := [.boolean true]
    let final : List Program := [mutant, a, b, a, [.integer 1], a, b]
    (∀ program ∈ [a, b], program.fits 3) ∧ Relation.ReflTransGen (Breeds Script 3) [a, b] final ∧
      ∀ program ∈ final, program.fits 3 := by
  intro a b mutant final
  let zeros : Script := { draws := [0] }
  have fits : ∀ program ∈ [a, b], program.fits 3 := by decide
  have first : Breeds Script 3 [a, b] [a, [.integer 1], a, b] :=
    .singlePoint { limit := 3 } zeros rfl (.head _) (.tail _ (.head _))
  let crossover : TwoPoint := { settings := { tries := 2 }, limit := 3 }
  have kept : (crossover.cross a b zeros).1 = (a, b) := by decide +kernel
  have second : Breeds Script 3 [a, [.integer 1], a, b] [a, b, a, [.integer 1], a, b] := by
    have hasA : a ∈ [a, [.integer 1], a, b] := .head _
    have hasB : b ∈ [a, [.integer 1], a, b] := .tail _ (.tail _ (.tail _ (.head _)))
    have made := Breeds.twoPoint crossover zeros rfl hasA hasB
    rwa [kept] at made
  have third : Breeds Script 3 [a, b, a, [.integer 1], a, b] final :=
    .mutation { fair := false } .uniform ⟨{ maxPoints := 3 }, [.literal (.boolean true)]⟩ zeros rfl
      (.tail _ (.tail _ (.tail _ (.head _)))) rfl
  have run : Relation.ReflTransGen (Breeds Script 3) [a, b] final :=
    ((Relation.ReflTransGen.single first).tail second).tail third
  exact ⟨fits, run, breeding_fits fits run⟩

end PushLang
