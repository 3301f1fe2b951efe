import PushLang.Proofs.Breeding.Reversal

/-! Two-point crossover at equal cuts is single-point crossover. The segment from a point to itself
holds the atom there, and an atom in place of that segment replaces the one at the point. -/

namespace PushLang

namespace Program

/-- The segment from a point to itself, if there is one, holds the atom at that point and nothing
else. -/
theorem extract?_of_segment?_self {program : Program} {index : Nat} {segment : Segment}
    (found : program.segment? (index + 1) (index + 1) = some segment) :
    ∃ atom, program.extract? (index + 1) = some atom ∧ segment.atoms = [atom] := by
  have single := program.map_atoms_segment?_self index
  rw [found, Option.map_some] at single
  obtain ⟨atom, present, same⟩ := Option.map_eq_some_iff.mp single.symm
  exact ⟨atom, by rw [extract?_succ, present], same.symm⟩

theorem segment?_self_eq_none {program : Program} {index : Nat} :
    program.segment? (index + 1) (index + 1) = none ↔ program.size ≤ index := by
  rw [← Option.not_isSome_iff_eq_none, isSome_segment?]
  omega

/-- An atom in place of the segment from a point to itself is that atom in place of the point. -/
theorem splice_segment?_self (program : Program) (index : Nat) (replacement : Atom) :
    ((program.segment? (index + 1) (index + 1)).bind fun segment =>
      (program.splice segment [replacement]).toOption) =
      program.replace? (index + 1) replacement := by
  cases found : program.segment? (index + 1) (index + 1) with
  | none =>
    have outside := segment?_self_eq_none.mp found
    have absent : program.replace? (index + 1) replacement = none := by
      rw [← Option.not_isSome_iff_eq_none, isSome_replace?]
      omega
    rw [absent]
    rfl
  | some segment =>
    obtain ⟨around, front, first, siblings, back, lies, -, -, low, -⟩ := exists_liesIn found
    obtain ⟨atom, -, single⟩ := extract?_of_segment?_self found
    have whole : program = around.fill (front ++ atom :: back) := by
      rw [lies.program_eq, single, List.append_assoc, List.singleton_append]
    have located := around.locate?_fill front back atom
    rw [← low, ← whole] at located
    have replaced : program.replace? (index + 1) replacement =
        some (around.fill (front ++ replacement :: back)) := by
      rw [whole] at located ⊢
      exact replace?_of_locate? located replacement
    rw [Option.bind_some, lies.splice_eq, replaced, List.append_assoc, List.singleton_append]
    rfl

theorem exchange_equal_cuts (program donor : Program) (cut donorCut : Nat) :
    program.exchange ⟨cut, cut⟩ donor ⟨donorCut, donorCut⟩ = program.graft cut donor donorCut := by
  unfold exchange graft cutSegment?
  cases taken : donor.segment? (donorCut + 1) (donorCut + 1) with
  | none =>
    have outside := segment?_self_eq_none.mp taken
    have absent : donor.extract? (donorCut + 1) = none := by
      rw [← Option.not_isSome_iff_eq_none, isSome_extract?]
      omega
    rw [absent]
    cases program.segment? (cut + 1) (cut + 1) with
    | none | some => rfl
  | some found =>
    obtain ⟨atom, present, single⟩ := extract?_of_segment?_self taken
    rw [present, Option.bind_some, ← splice_segment?_self]
    cases program.segment? (cut + 1) (cut + 1) with
    | none => rfl
    | some target => simp only [Option.bind_some, single]

end Program

variable {ρ σ : Type} [RandomSource ρ] [RandomSource σ]

namespace TwoPoint

variable {crossover : TwoPoint}

theorem draw_of_deals (apart : crossover.settings.homologous = false) {a b : Program}
    {cutA cutB : Nat} {source later : ρ} (insideA : cutA < a.size) (insideB : cutB < b.size)
    (dealt : Deals source [cutA, cutA, cutB, cutB] later) :
    crossover.draw a b source = ((⟨cutA, cutA⟩, ⟨cutB, cutB⟩), later) := by
  obtain - | ⟨lowA, dealt⟩ := dealt
  obtain - | ⟨highA, dealt⟩ := dealt
  obtain - | ⟨lowB, dealt⟩ := dealt
  obtain - | ⟨highB, dealt⟩ := dealt
  cases dealt
  simp only [draw, apart, Bool.false_eq_true, if_false, Cuts.draw, Cuts.ordered, lowA _ insideA,
    highA _ insideA, lowB _ insideB, highB _ insideB, Nat.min_self, Nat.max_self]

/-- Children of the first attempt that both keep to the limit are given as they are. -/
theorem cross_eq_first (pair : crossover.settings.scope = .pair)
    (attempts : 1 ≤ crossover.settings.tries) {a b : Program} {cutsA cutsB : Cuts}
    {source later : ρ} (hasA : 0 < a.size) (hasB : 0 < b.size)
    (drawn : crossover.draw a b source = ((cutsA, cutsB), later))
    (fitsA : (a.exchange cutsA b cutsB).fits crossover.limit)
    (fitsB : (b.exchange cutsB a cutsA).fits crossover.limit) :
    crossover.cross a b source = ((a.exchange cutsA b cutsB, b.exchange cutsB a cutsA), later) := by
  have present : ¬ (a.size = 0 ∨ b.size = 0) := by omega
  obtain ⟨more, counted⟩ := Nat.exists_eq_add_of_le' attempts
  simp only [cross, if_neg present, pair, crossPair, counted, retry, attemptPair, drawn, fitsA,
    fitsB, Bool.and_self, if_true, Option.getD_some]

end TwoPoint

/-- Everywhere in a program, the segment from a point to itself holds what is extracted there, and
splicing over it replaces the point. So two-point crossover with equal cuts in each parent gives the
children of single-point crossover at these cuts, as long as they keep to the common limit: on draws
that repeat each cut, and on any draws that come out so. -/
theorem cross_equal_cuts :
    (∀ (program : Program) (index : Nat) (replacement : Atom), 1 ≤ index →
      (program.segment? index index).map Program.Segment.atoms =
        (program.extract? index).map (fun atom => [atom]) ∧
      ((program.segment? index index).bind fun segment =>
        (program.splice segment [replacement]).toOption) =
        program.replace? index replacement) ∧
    ∀ (crossover : TwoPoint) (a b : Program) (cutA cutB : Nat),
      crossover.settings.homologous = false →
      crossover.settings.scope = .pair → 1 ≤ crossover.settings.tries → cutA < a.size →
        cutB < b.size →
      (a.graft cutA b cutB).fits crossover.limit → (b.graft cutB a cutA).fits crossover.limit →
      let settings : SinglePoint := { limit := crossover.limit }
      (∀ source later : ρ, Deals source [cutA, cutA, cutB, cutB] later →
        crossover.draw a b source = ((⟨cutA, cutA⟩, ⟨cutB, cutB⟩), later)) ∧
      (∀ source later : σ, Deals source [cutA, cutB] later →
        settings.draw a b source = ((cutA, cutB), later)) ∧
      ∀ (source later : ρ) (other last : σ),
        crossover.draw a b source = ((⟨cutA, cutA⟩, ⟨cutB, cutB⟩), later) →
        settings.draw a b other = ((cutA, cutB), last) →
        crossover.cross a b source = ((settings.cross a b other).1, later) ∧
          (settings.cross a b other).2 = last := by
  constructor
  · intro program index replacement positive
    obtain ⟨before, rfl⟩ := Nat.exists_eq_add_of_le' positive
    rw [Program.map_atoms_segment?_self, Program.extract?_succ]
    exact ⟨rfl, program.splice_segment?_self before replacement⟩
  · intro crossover a b cutA cutB apart pair attempts insideA insideB fitsA fitsB settings
    refine ⟨?_, ?_, ?_⟩
    · intro source later dealt
      exact TwoPoint.draw_of_deals apart insideA insideB dealt
    · intro source later dealt
      exact settings.draw_of_deals insideA insideB nofun dealt
    · intro source later other last drawn once
      have twice := TwoPoint.cross_eq_first pair attempts (by omega) (by omega) drawn
        (by rwa [Program.exchange_equal_cuts]) (by rwa [Program.exchange_equal_cuts])
      rw [Program.exchange_equal_cuts, Program.exchange_equal_cuts] at twice
      rw [twice, settings.cross_eq insideA insideB once fitsA fitsB]
      exact ⟨rfl, rfl⟩

/-- An empty program, the last one of its siblings, changes places with a longer one. -/
theorem cross_equal_cuts_empty :
    let a : Program := [.integer 1, .program [.name "x", .program []]]
    let b : Program := [.program [.integer 2, .integer 3], .boolean true]
    let children : Program × Program :=
      ([.integer 1, .program [.name "x", .program [.integer 2, .integer 3]]],
        [.program [], .boolean true])
    let crossover : TwoPoint := { settings := { tries := 1 }, limit := 6 }
    let settings : SinglePoint := { limit := 6 }
    let twice : Script := { draws := [3, 3, 0, 0] }
    let once : Script := { draws := [3, 0] }
    (a.segment? 4 4).map Program.Segment.atoms = some [.program []] ∧ 3 < a.size ∧ 0 < b.size ∧
      (a.graft 3 b 0).fits 6 ∧ (b.graft 0 a 3).fits 6 ∧ (settings.cross a b once).1 = children ∧
      crossover.cross a b twice = (children, twice.advance 4) := by
  intro a b children crossover settings twice once
  have insideA : 3 < a.size := by decide
  have insideB : 0 < b.size := by decide
  have fitsA : (a.graft 3 b 0).fits 6 := by decide +kernel
  have fitsB : (b.graft 0 a 3).fits 6 := by decide +kernel
  have crossed : (settings.cross a b once).1 = children := by decide +kernel
  obtain ⟨everywhere, same⟩ := cross_equal_cuts (ρ := Script) (σ := Script)
  obtain ⟨dealsTwice, dealsOnce, crosses⟩ :=
    same crossover a b 3 0 rfl rfl (by decide) insideA insideB fitsA fitsB
  obtain ⟨equal, -⟩ := crosses twice (twice.advance 4) once (once.advance 2)
    (dealsTwice twice _ (twice.deals [] [3, 3, 0, 0] rfl rfl))
      (dealsOnce once _ (once.deals [] [3, 0] rfl rfl))
  refine ⟨(everywhere a 4 (.integer 0) (by decide)).1, insideA, insideB, fitsA, fitsB, crossed, ?_⟩
  rw [equal, crossed]

end PushLang
