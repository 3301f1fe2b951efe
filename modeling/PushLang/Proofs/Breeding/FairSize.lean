import PushLang.Proofs.Breeding.Mutation
import PushLang.Proofs.Random.Script
import PushLang.Proofs.Safety.Words

/-! The size of a fair replacement in words. The draw is taken below twice the deviation, as a word,
and moves the old size as a signed word. A share of the old size may be too large for either. -/

namespace PushLang

namespace Checked

namespace Mutation

variable {ρ : Type} [RandomSource ρ]

/-- The size of a fair replacement with every number on the way as a word. -/
def exactSize (range : Binary32) (old : Nat) : Checked ρ Nat := do
  let deviation := Mutation.deviation range old
  let width ← toWord (2 * deviation)
  let drawn ← drawBelow width
  let offset ← toSigned (signed drawn - signed deviation)
  let moved ← toSigned (signed old + offset)
  return (max 1 moved).toNat

variable {range : Binary32} {old : Nat}

/-- A width that is a word, and a draw from the lower half of the words, leave only the sum to be
checked. -/
theorem exactSize_of_draw (width : 2 * Mutation.deviation range old < UInt64.size)
    {source rest : ρ} {draw : Nat}
    (drawn : below (2 * Mutation.deviation range old) source = (draw, rest))
    (lower : draw < UInt64.size / 2) :
    exactSize range old source =
      (toSigned (signed old + (draw - Mutation.deviation range old)) >>= fun moved =>
        pure (max 1 moved).toNat :
        Checked ρ Nat) rest := by
  have wide := PushLang.Mutation.deviation_pos range old
  have words : UInt64.size = 18446744073709551616 := rfl
  have dealt :=
    Yields.drawBelow (ρ := ρ) (show 0 < 2 * Mutation.deviation range old by omega) source
  rw [drawn] at dealt
  have drawnSigned := signed_of_lower lower
  have widthSigned := signed_of_lower (show Mutation.deviation range old < UInt64.size / 2 by omega)
  have offset : (toSigned ((draw : Int) - Mutation.deviation range old) : Checked ρ Int) = pure _ :=
    toSigned_eq (by omega) (by omega)
  simp only [exactSize, toWord_eq width, bind_apply, pure_apply, dealt, drawnSigned, widthSigned,
    offset]

theorem exactSize_eq (width : 2 * Mutation.deviation range old < UInt64.size) {source rest : ρ}
    {draw : Nat} (drawn : below (2 * Mutation.deviation range old) source = (draw, rest))
    (lower : draw < UInt64.size / 2) (small : old < UInt64.size / 2)
    (room : old + draw < UInt64.size / 2 + Mutation.deviation range old) :
    exactSize range old source = .ok (max 1 (old + draw - Mutation.deviation range old)) rest := by
  have words : UInt64.size = 18446744073709551616 := rfl
  have oldSigned := signed_of_lower small
  have moved :
      (toSigned ((old : Int) + (draw - Mutation.deviation range old)) : Checked ρ Int) = pure _ :=
    toSigned_eq (by omega) (by omega)
  rw [exactSize_of_draw width drawn lower]
  simp only [oldSigned, moved, bind_apply, pure_apply, EStateM.Result.ok.injEq, and_true]
  omega

/-- A width that is no word stops the steps, and so does a draw in the upper half of the words: read
as a signed word it is negative, and the deviation takes it out of range. -/
theorem exactSize_overflow {source : ρ}
    (failed : PushLang.Mutation.fairSize range old source = .error .overflow) :
    ∃ rest, exactSize range old source = .error (.fault .overflow) rest := by
  have wide := PushLang.Mutation.deviation_pos range old
  have words : UInt64.size = 18446744073709551616 := rfl
  by_cases width : UInt64.size ≤ 2 * Mutation.deviation range old
  · exact ⟨source, by simp only [exactSize, toWord_overflow width, bind_apply, throw_apply]⟩
  · obtain ⟨draw, rest, drawn⟩ :
      ∃ draw rest, below (2 * Mutation.deviation range old) source = (draw, rest) := ⟨_, _, rfl⟩
    have inside := RandomSource.below_lt (2 * Mutation.deviation range old) source (by omega)
    have dealt :=
      Yields.drawBelow (ρ := ρ) (show 0 < 2 * Mutation.deviation range old by omega) source
    rw [drawn] at inside dealt
    simp only [PushLang.Mutation.fairSize, if_neg width, drawn] at failed
    split at failed
    · rename_i upper
      have drawnSigned := signed_of_upper upper (by omega)
      have widthSigned :=
        signed_of_lower (show Mutation.deviation range old < UInt64.size / 2 by omega)
      have offset : (toSigned ((draw : Int) - UInt64.size - Mutation.deviation range old) :
          Checked ρ Int) = _ :=
        toSigned_overflow (by omega)
      refine ⟨rest, ?_⟩
      simp only [exactSize, toWord_eq (Nat.lt_of_not_le width), bind_apply, pure_apply, dealt,
        drawnSigned, widthSigned, offset, throw_apply]
    · cases failed

end Mutation

end Checked

namespace Mutation

variable {ρ : Type} [RandomSource ρ]

/-- The size of a fair replacement for an atom of some points is drawn without any number leaving
its word, and it is no farther from the old size than the deviation says. -/
def FairlySized (range : Binary32) (old : Nat) (source : ρ) : Prop :=
  ∃ size rest, fairSize range old source = .ok (size, rest) ∧
    Checked.Mutation.exactSize range old source = .ok size rest ∧
    max 1 (old - deviation range old) ≤ size ∧ size ≤ old + deviation range old - 1

variable {range : Binary32} {old : Nat}

theorem fairlySized (positive : 0 < old) (moderate : deviation range old ≤ UInt64.size / 4)
    (room : old + deviation range old ≤ UInt64.size / 2) (source : ρ) :
    FairlySized range old source := by
  have wide := deviation_pos range old
  have words : UInt64.size = 18446744073709551616 := rfl
  obtain ⟨draw, rest, drawn⟩ : ∃ draw rest, below (2 * deviation range old) source = (draw, rest) :=
    ⟨_, _, rfl⟩
  have inside := RandomSource.below_lt (2 * deviation range old) source (by omega)
  rw [drawn] at inside
  have plain :
      fairSize range old source = .ok (max 1 (old + draw - deviation range old), rest) := by
    simp only [fairSize, if_neg (show ¬ UInt64.size ≤ 2 * deviation range old by omega), drawn,
      if_neg (show ¬ UInt64.size / 2 ≤ draw by omega)]
  have exact :=
    Checked.Mutation.exactSize_eq (show 2 * deviation range old < UInt64.size by omega) drawn
    (show draw < UInt64.size / 2 by omega) (show old < UInt64.size / 2 by omega) (by omega)
  exact ⟨_, rest, plain, exact, by omega, by omega⟩

/-- The source whose first draw is the largest one that a deviation allows. -/
def lastDraw (deviation : Nat) : Script := { draws := [2 * deviation - 1] }

theorem below_lastDraw {deviation : Nat} (positive : 0 < deviation) :
    below (2 * deviation) (lastDraw deviation) =
      (2 * deviation - 1, { draws := [2 * deviation - 1], drawn := 1 }) :=
  Script.below_first (by omega) [] []

/-- A deviation beyond a quarter of all words has draws that are no signed words, or is even too
large for its double. -/
theorem fairSize_lastDraw (large : UInt64.size / 4 < deviation range old) :
    fairSize range old (lastDraw (deviation range old)) = .error .overflow := by
  have words : UInt64.size = 18446744073709551616 := rfl
  simp only [fairSize, below_lastDraw (deviation_pos range old)]
  split
  · rfl
  · exact if_pos (by omega)

/-- The last draw moves the old size up by one less than the deviation, and no signed word is as
large as half of all words. -/
theorem room_of_fairlySized (word : old < UInt64.size)
    (moderate : deviation range old ≤ UInt64.size / 4)
    (sized : FairlySized range old (lastDraw (deviation range old))) :
    old + deviation range old ≤ UInt64.size / 2 := by
  have wide := deviation_pos range old
  have words : UInt64.size = 18446744073709551616 := rfl
  obtain ⟨size, rest, -, exact, low, -⟩ := sized
  rw [Checked.Mutation.exactSize_of_draw (by omega) (below_lastDraw wide) (by omega),
    Checked.bind_apply] at exact
  by_cases outside : 9223372036854775808 ≤
    Checked.signed old + ((2 * deviation range old - 1 : Nat) - deviation range old)
  · rw [Checked.toSigned_overflow (.inr outside)] at exact
    cases exact
  · -- An old size from the upper half of the words is negative as a signed word, and the new size
    -- would be too small.
    have signed := Checked.signed_eq word
    rw [Checked.toSigned_eq (by split at signed <;> omega) (by omega)] at exact
    cases exact
    split at signed <;> omega

/-- The size of a fair replacement for an atom of any number of points is drawn from every source,
without a number leaving its word and no farther from the old size than the deviation says, exactly
if the deviation is at most a quarter of all words and makes up no more than half of them with the
old size. Beyond that quarter there is a source that stops it. -/
theorem fairSize_safe_iff (range : Binary32) {old : Nat} (positive : 0 < old)
    (word : old < UInt64.size) :
    ((∀ (ρ : Type) [RandomSource ρ] (source : ρ), FairlySized range old source) ↔
      deviation range old ≤ UInt64.size / 4 ∧ old + deviation range old ≤ UInt64.size / 2) ∧
    (UInt64.size / 4 < deviation range old →
      ∃ source : Script, fairSize range old source = .error .overflow ∧
      ∃ rest, Checked.Mutation.exactSize range old source = .error (.fault .overflow) rest) := by
  have stopped (large : UInt64.size / 4 < deviation range old) := fairSize_lastDraw large
  refine ⟨⟨fun safe => ?_,
    fun ⟨moderate, room⟩ ρ _ source => fairlySized positive moderate room source⟩, fun large => ?_⟩
  · have sized := safe Script (lastDraw (deviation range old))
    have moderate : deviation range old ≤ UInt64.size / 4 := by
      refine Nat.le_of_not_lt fun large => ?_
      obtain ⟨size, rest, drawn, -⟩ := sized
      rw [stopped large] at drawn
      cases drawn
    exact ⟨moderate, room_of_fairlySized word moderate sized⟩
  · exact ⟨_, stopped large, Checked.Mutation.exactSize_overflow (stopped large)⟩

/-- A deviation of just a quarter of all words, which no draw can stop, and one of twice as much. -/
theorem fairSize_safe_iff_quarter :
    let quarter : Binary32 := 4611686018427387904
    let half : Binary32 := 9223372036854775808
    deviation quarter 1 = UInt64.size / 4 ∧ (∀ source : Script, FairlySized quarter 1 source) ∧
      deviation half 1 = UInt64.size / 2 ∧ ∃ source : Script,
        fairSize half 1 source = .error .overflow := by
  intro quarter half
  have first : deviation quarter 1 = UInt64.size / 4 := by decide +kernel
  have second : deviation half 1 = UInt64.size / 2 := by decide +kernel
  obtain ⟨safe, -⟩ := fairSize_safe_iff quarter Nat.one_pos (by decide)
  obtain ⟨-, beyond⟩ := fairSize_safe_iff half Nat.one_pos (by decide)
  obtain ⟨source, stopped, -⟩ := beyond (by rw [second]; decide)
  exact ⟨first, safe.mpr (by rw [first]; decide) Script, second, source, stopped⟩

/-- Settings that a JSON value describes, with a share of the old size whose double is no word. -/
theorem fairSize_overflows :
    ∃ mutation, ofJson? (.object [(some "fair_mutation_range",
      .number (.integer 10000000000000000000))]) = some mutation ∧
      mutation.fair = true ∧ ∀ source : Script,
        fairSize mutation.fairRange 1 source = .error .overflow ∧
        ∃ rest, Checked.Mutation.exactSize mutation.fairRange 1 source =
          .error (.fault .overflow) rest := by
  let mutation : Mutation := { fairRange := 10000000000000000000 }
  have large : UInt64.size ≤ 2 * deviation mutation.fairRange 1 := by decide +kernel
  have stopped (source : Script) : fairSize mutation.fairRange 1 source = .error .overflow :=
    if_pos large
  exact ⟨mutation, rfl, rfl,
    fun source => ⟨stopped source, Checked.Mutation.exactSize_overflow (stopped source)⟩⟩

end Mutation

end PushLang
