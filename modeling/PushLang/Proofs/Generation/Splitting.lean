import PushLang.Proofs.Generation.Code

/-! Points split into sizes round by round. Every round takes a size off the points that remain, so
that the rounds end of themselves, after no more of them than there are points, nor than there may
be parts. -/

namespace PushLang

/-- Points on their way into sizes: the sizes so far, the points that remain, and how many parts
these may still become. -/
structure Splitting where
  sizes : List Nat
  remaining : Nat
  parts : Nat

variable {ρ : Type} [RandomSource ρ]

namespace Checked

/-- A round takes the next size off the points that remain. -/
def splitRound (splitting : Splitting) : Checked ρ Splitting := do
  let size ← nextSize splitting.remaining splitting.parts
  let left ← subtract splitting.remaining size
  return { sizes := splitting.sizes ++ [size], remaining := left, parts := splitting.parts - 1 }

/-- The next size is never zero nor too large, and a last part takes all that remains. -/
theorem nextSize_within {remaining : Nat} (present : 0 < remaining) (parts : Nat) (source : ρ) :
    ∃ size rest, nextSize remaining parts source = .ok size rest ∧ 0 < size ∧ size ≤ remaining ∧
      (parts ≤ 1 → size = remaining) := by
  by_cases last : remaining = 1 ∨ parts ≤ 1
  · exact ⟨remaining, source, by rw [nextSize_last present last, pure_apply], present,
      Nat.le_refl _, fun _ => rfl⟩
  · have inside := RandomSource.below_lt remaining source present
    exact ⟨_, _, nextSize_drawn last present, Nat.succ_pos _, inside,
      fun few => absurd (.inr few) last⟩

theorem splitRound_of_nextSize (sizes : List Nat) {remaining parts size : Nat} {source rest : ρ}
    (chosen : nextSize remaining parts source = .ok size rest) (within : size ≤ remaining) :
    splitRound ⟨sizes, remaining, parts⟩ source =
      .ok ⟨sizes ++ [size], remaining - size, parts - 1⟩ rest := by
  simp only [splitRound, bind_apply, chosen, subtract_eq within, pure_apply]

end Checked

namespace Splitting

/-- Some rounds in a row. A round is started only as long as points remain, and every one of them
passes its checks. -/
inductive Rounds : Nat → Splitting → ρ → Splitting → ρ → Prop where
  | none {splitting : Splitting} {source : ρ} : Rounds 0 splitting source splitting source
  | next {count : Nat} {first second last : Splitting} {source middle rest : ρ}
      (present : 0 < first.remaining)
      (round : Checked.splitRound first source = .ok second middle)
        (later : Rounds count second middle last rest) :
      Rounds (count + 1) first source last rest

/-- How many sizes may still come. -/
def room (splitting : Splitting) : Nat :=
  if splitting.remaining = 0 then 0 else max 1 splitting.parts

theorem room_le (splitting : Splitting) : splitting.room ≤ max 1 splitting.parts := by
  unfold room
  split
  · exact Nat.zero_le _
  · exact Nat.le_refl _

/-- A round leaves fewer points and room for fewer sizes. -/
theorem smaller_of_round {first second : Splitting} {source middle : ρ}
    (present : 0 < first.remaining) (round : Checked.splitRound first source = .ok second middle) :
    second.remaining < first.remaining ∧ second.room < first.room := by
  obtain ⟨sizes, remaining, parts⟩ := first
  obtain ⟨size, rest, chosen, positive, within, whole⟩ :=
    Checked.nextSize_within present parts source
  rw [Checked.splitRound_of_nextSize sizes chosen within] at round
  cases round
  refine ⟨Nat.sub_lt present positive, ?_⟩
  simp only [room, if_neg (Nat.ne_of_gt present)]
  split
  · omega
  · rename_i left
    -- Points are left only if there may be another part.
    have several : ¬ parts ≤ 1 := fun few => left (by rw [whole few, Nat.sub_self])
    omega

/-- However many rounds there are, each of them took a point and a part. -/
theorem Rounds.count_le {count : Nat} {first last : Splitting} {source rest : ρ}
    (rounds : Rounds count first source last rest) :
    count + last.remaining ≤ first.remaining ∧ count + last.room ≤ first.room := by
  induction rounds with
  | none => omega
  | next present round later ih =>
    have smaller := smaller_of_round present round
    omega

/-- The rounds go on until no point remains, and their sizes are those of the recursion. -/
theorem exists_rounds (steps : Nat) (splitting : Splitting) (enough : splitting.remaining ≤ steps)
    (source : ρ) :
    let split := splitWithin steps splitting.remaining splitting.parts source
    ∃ left, Rounds split.1.length splitting source
      ⟨splitting.sizes ++ split.1, 0, left⟩ split.2 := by
  induction steps generalizing splitting source with
  | zero =>
    obtain ⟨sizes, remaining, parts⟩ := splitting
    obtain rfl : remaining = 0 := Nat.le_zero.mp enough
    refine ⟨parts, ?_⟩
    rw [splitWithin, List.append_nil]
    exact .none
  | succ steps ih =>
    obtain ⟨sizes, remaining, parts⟩ := splitting
    rcases Nat.eq_zero_or_pos remaining with rfl | present
    · refine ⟨parts, ?_⟩
      simp only [splitWithin, if_true, List.append_nil]
      exact .none
    · have some : ¬ remaining = 0 := Nat.ne_of_gt present
      by_cases last : remaining = 1 ∨ parts ≤ 1
      · have chosen : Checked.nextSize remaining parts source = .ok remaining source := by
          rw [Checked.nextSize_last present last, Checked.pure_apply]
        have round := Checked.splitRound_of_nextSize sizes chosen (Nat.le_refl _)
        rw [Nat.sub_self] at round
        refine ⟨parts - 1, ?_⟩
        simp only [splitWithin, if_neg some, if_pos last]
        exact .next present round .none
      · have chosen : Checked.nextSize remaining parts source =
            .ok ((below remaining source).1 + 1) (below remaining source).2 :=
              Checked.nextSize_drawn last present
        have round := Checked.splitRound_of_nextSize sizes chosen
          (RandomSource.below_lt remaining source present)
        obtain ⟨left, later⟩ := ih ⟨sizes ++ [(below remaining source).1 + 1],
          remaining - ((below remaining source).1 + 1), parts - 1⟩ (by
          simp only at enough ⊢; omega) (below remaining source).2
        refine ⟨left, ?_⟩
        rw [List.append_assoc] at later
        simp only [splitWithin, if_neg some, if_neg last]
        exact .next present round later

end Splitting

/-- Points are split in rounds until none remains, which takes no more rounds than there are points,
nor than parts are asked for, one at least. The sizes of these rounds are only put into another
order, and they are positive and make up all points. No check stops this on the way, be it for a
draw from an empty range or for a position outside of the sizes. -/
theorem decompose_splits (points parts : Nat) (source : ρ) :
    (∀ count last rest, Splitting.Rounds count ⟨[], points, parts⟩ source last rest →
      count ≤ min points (max 1 parts)) ∧
    ∃ sizes left middle,
      Splitting.Rounds sizes.length ⟨[], points, parts⟩ source ⟨sizes, 0, left⟩ middle ∧
      Checked.decompose points parts source =
        .ok (decompose points parts source).1 (decompose points parts source).2 ∧
      decompose points parts source = shuffleFrom 0 sizes.length sizes middle ∧
      (decompose points parts source).1.Perm sizes ∧
      (decompose points parts source).1.sum = points ∧
      (∀ size ∈ (decompose points parts source).1, 0 < size) ∧
      (decompose points parts source).1.length ≤ max 1 parts := by
  have bounded (count : Nat) (last : Splitting) (rest : ρ)
      (rounds : Splitting.Rounds count ⟨[], points, parts⟩ source last rest) :
        count ≤ min points (max 1 parts) := by
    obtain ⟨fewPoints, fewParts⟩ := rounds.count_le
    have room : Splitting.room ⟨[], points, parts⟩ ≤ max 1 parts := Splitting.room_le _
    exact Nat.le_min.mpr ⟨Nat.le_trans (Nat.le_add_right _ _) fewPoints, by omega⟩
  obtain ⟨left, rounds⟩ := Splitting.exists_rounds points ⟨[], points, parts⟩ (Nat.le_refl _) source
  have shuffled :
      (decompose points parts source).1.Perm (splitWithin points points parts source).1 :=
    Checked.shuffleFrom_perm _ _ _ _
  have few : (splitWithin points points parts source).1.length ≤ min points (max 1 parts) :=
    bounded _ _ _ rounds
  refine ⟨bounded, _, left, _, rounds, Checked.decompose_yields points parts source, rfl, shuffled,
    sum_decompose points parts source, pos_of_mem_decompose points parts source, ?_⟩
  rw [shuffled.length_eq]
  exact Nat.le_trans few (Nat.min_le_right _ _)

/-- Ten points in three parts, of which the last takes what the first two leave. -/
theorem decompose_splits_three :
    let source : Script := { draws := [2, 1, 1, 2, 0] }
    (decompose 10 3 source).1 = [3, 5, 2] ∧ ∃ sizes left middle,
      Splitting.Rounds sizes.length ⟨[], 10, 3⟩ source ⟨sizes, 0, left⟩ middle ∧ sizes.length ≤ 3 ∧
      [3, 5, 2].Perm sizes := by
  intro source
  have result : (decompose 10 3 source).1 = [3, 5, 2] := by decide
  obtain ⟨bounded, sizes, left, middle, rounds, -, -, shuffled, -⟩ := decompose_splits 10 3 source
  rw [result] at shuffled
  exact ⟨result, sizes, left, middle, rounds, bounded _ _ _ rounds, shuffled⟩

end PushLang
