import PushLang.Proofs.Breeding.Mutation
import PushLang.Proofs.Safety.Crossover

namespace PushLang

variable {σ ρ α : Type} [RandomSource ρ]

namespace Checked

/-- The cuts at atoms that pass a test. -/
def cutsWhere (program : Program) (test : Atom → Bool) : Checked σ (List Nat) :=
  (program.indexedPoints.filter fun (_, atom) => test atom).mapM fun (index, _) => subtract index 1

def pool (program : Program) (wantNested : Bool) : Checked σ (List Nat) := do
  let nested ← cutsWhere program Atom.isProgram
  let leaves ← cutsWhere program fun atom => !atom.isProgram
  return if (wantNested || leaves.isEmpty) && !nested.isEmpty then nested else leaves

def select (program : Program) : Selector → Checked ρ Nat
  | .uniform => if program.size = 0 then pure 0 else drawBelow program.size
  | .byKind nestedProbability => do
    let wanted ← draw unit
    let cuts ← pool program (wanted < nestedProbability)
    if cuts.isEmpty then pure 0
    else do
      let index ← drawBelow cuts.length
      entry cuts index

namespace Mutation

/-- A difference of two numbers within signed words. -/
def difference (a b : Nat) : Checked σ Int :=
  if a < UInt64.size / 2 ∧ b < UInt64.size / 2 then pure ((a : Int) - b)
  else throw (.fault .overflow)

def fairSize (range : Binary32) (old : Nat) : Checked ρ Nat := do
  let deviation := Mutation.deviation range old
  let width ← if 2 * deviation < UInt64.size then pure (2 * deviation) else throw (.fault .overflow)
  let drawn ← drawBelow width
  let offset ← difference drawn deviation
  return (max 1 ((old : Int) + offset)).toNat

def newSize (mutation : Mutation) (config : Config) (old : Nat) : Checked ρ Nat :=
  if mutation.fair then fairSize mutation.fairRange old
  else (· + 1) <$> drawBelow (max 1 config.maxRandomCodeSize)

def replacement (env : Environment) (size : Nat) : Checked ρ Atom :=
  if size = 1 then randomAtom env
  else do
    let body ← randomCodeWithin env size size
    return .program body

def replaceAt (env : Environment) (parent : Program) (cut size : Nat) : Checked ρ Program := do
  let atom ← replacement env size
  let child ← replace parent (cut + 1) atom
  return child.orParent parent env.config.maxPoints

def mutate (mutation : Mutation) (selector : Selector) (env : Environment) (parent : Program) :
    Checked ρ Program :=
  if parent.size = 0 then pure parent
  else do
    let cut ← select parent selector
    let old ← extract parent (cut + 1)
    let size ← newSize mutation env.config old.points
    replaceAt env parent cut size

end Mutation

theorem mapM_eq {β : Type} {items : List β} {action : β → Checked σ α} {value : β → α}
    (each : ∀ item ∈ items, action item = pure (value item)) :
    items.mapM action = pure (items.map value) := by
  induction items with
  | nil => rfl
  | cons item items ih =>
    obtain ⟨own, others⟩ := List.forall_mem_cons.mp each
    rw [List.mapM_cons, own, pure_bind, ih others, pure_bind, List.map_cons]

/-- Points are numbered from one on, so that each has a cut. -/
theorem cutsWhere_eq (program : Program) (test : Atom → Bool) :
    (cutsWhere program test : Checked σ (List Nat)) = pure (program.cutsWhere test) := by
  refine mapM_eq fun point member => ?_
  exact subtract_eq (Program.index_of_mem_indexedPoints (List.mem_filter.mp member).1).1

theorem pool_eq (program : Program) (wantNested : Bool) :
    (pool program wantNested : Checked σ (List Nat)) = pure (Selector.pool program wantNested) := by
  simp only [pool, cutsWhere_eq, pure_bind, Selector.pool]

theorem select_yields (program : Program) (selector : Selector) :
    (select program selector : Checked ρ Nat).Yields fun source =>
      selector.select program source := by
  intro source
  cases selector with
  | uniform =>
    simp only [select, Selector.select]
    split
    · rfl
    · exact Yields.drawBelow (by omega) source
  | byKind nestedProbability =>
    obtain ⟨wanted, later, drawn⟩ :
      ∃ wanted later, (unit source : Binary32 × ρ) = (wanted, later) := ⟨_, _, rfl⟩
    simp only [select, Selector.select, Checked.draw, bind_apply, drawn, pool_eq, pure_apply]
    split
    · rfl
    · rename_i present
      have positive : 0 < (Selector.pool program (wanted < nestedProbability)).length :=
        List.length_pos_iff.mpr (by simpa using present)
      have inside := RandomSource.below_lt _ later positive
      have chosen := Yields.drawBelow positive later
      have found := List.getElem?_eq_getElem inside
      simp only [bind_apply, chosen, entry_eq found, pure_apply, List.getD_eq_getElem?_getD, found,
        Option.getD_some]

namespace Mutation

omit [RandomSource ρ] in
theorem difference_eq {a b : Nat} (small : a < UInt64.size / 2) (other : b < UInt64.size / 2) :
    (difference a b : Checked σ Int) = pure ((a : Int) - b) := if_pos ⟨small, other⟩

theorem fairSize_passes {range : Binary32} {old : Nat}
    (moderate : Mutation.deviation range old < UInt64.size / 4) (source : ρ) :
    ∃ size rest, PushLang.Mutation.fairSize range old source = .ok (size, rest) ∧
      fairSize range old source = .ok size rest := by
  have wide := Mutation.deviation_pos range old
  have words : UInt64.size = 18446744073709551616 := rfl
  have width : 0 < 2 * Mutation.deviation range old ∧
    2 * Mutation.deviation range old < UInt64.size := by omega
  have checkedDraw := Yields.drawBelow width.1 source
  obtain ⟨draw, rest, drawn⟩ :
    ∃ draw rest, below (2 * Mutation.deviation range old) source = (draw, rest) := ⟨_, _, rfl⟩
  rw [drawn] at checkedDraw
  obtain ⟨inside, sized⟩ := Mutation.fairSize_eq moderate drawn
  have offset := difference_eq (σ := ρ) (show draw < UInt64.size / 2 by omega)
    (show Mutation.deviation range old < UInt64.size / 2 by omega)
  refine ⟨_, rest, sized, ?_⟩
  simp only [fairSize, if_pos width.2, bind_apply, pure_apply, checkedDraw, offset,
    EStateM.Result.ok.injEq, and_true]
  omega

theorem newSize_passes (mutation : Mutation) (config : Config) {old : Nat}
    (moderate : mutation.fair = true → Mutation.deviation mutation.fairRange old < UInt64.size / 4)
    (source : ρ) :
    ∃ size rest, mutation.newSize config old source = .ok (size, rest) ∧
      newSize mutation config old source = .ok size rest := by
  unfold newSize PushLang.Mutation.newSize
  split
  · rename_i fair
    exact fairSize_passes (moderate fair) source
  · have drawn := Yields.drawBelow (Nat.le_max_left 1 config.maxRandomCodeSize) source
    exact ⟨_, _, rfl, by simp only [map_apply, drawn]; rfl⟩

theorem replacement_follows (env : Environment) (size : Nat) :
    (replacement env size : Checked ρ Atom).Follows (PushLang.Mutation.replacement env size) := by
  unfold replacement PushLang.Mutation.replacement
  split
  · exact env.randomAtom_follows
  · exact (env.randomCode_follows size).bind fun body => (Passes.pure (Atom.program body)).follows

theorem replaceAt_follows (env : Environment) {parent : Program} {cut : Nat}
    (inside : cut < parent.size) (size : Nat) :
    (replaceAt env parent cut size : Checked ρ Program).Follows
      (PushLang.Mutation.replaceAt env parent cut size) := by
  refine (replacement_follows env size).bind fun atom => ?_
  obtain ⟨child, replaced⟩ :=
    Option.isSome_iff_exists.mp ((parent.isSome_replace? (cut + 1) atom).mpr inside)
  rw [replace_eq replaced, pure_bind, replaced, Option.getD_some]
  exact (Passes.pure _).follows

theorem mutate_follows (mutation : Mutation) (selector : Selector) (env : Environment)
    (parent : Program) (source : ρ)
    (moderate : mutation.fair = true →
      ∀ old, parent.pointsAt? ((selector.select parent source).1 + 1) = some old →
      Mutation.deviation mutation.fairRange old < UInt64.size / 4) :
    ∃ result, mutation.mutate selector env parent source = .ok result ∧
      mutate mutation selector env parent source = ofResult result := by
  by_cases empty : parent.size = 0
  · refine ⟨.ok parent source, if_pos empty, ?_⟩
    rw [mutate, if_pos empty, pure_apply, ofResult]
  · have inside := selector.select_lt (Nat.pos_of_ne_zero empty) source
    have checkedSelect := select_yields parent selector source
    obtain ⟨cut, rest, selected⟩ : ∃ cut rest, selector.select parent source = (cut, rest) :=
      ⟨_, _, rfl⟩
    simp only [selected] at inside checkedSelect moderate
    obtain ⟨old, found, -⟩ := Program.exists_extract? inside
    have extent : parent.pointsAt? (cut + 1) = some old.points := by
      rw [Program.pointsAt?_eq, found, Option.map_some]
    obtain ⟨size, later, sized, checkedSize⟩ :=
      newSize_passes mutation env.config (fun fair => moderate fair old.points extent) rest
    refine ⟨PushLang.Mutation.replaceAt env parent cut size later, ?_, ?_⟩
    · simp only [PushLang.Mutation.mutate, if_neg empty, selected, extent, Option.getD_some, sized]
      rfl
    · simp only [mutate, if_neg empty, bind_apply, checkedSelect, extract_eq found, pure_apply,
        checkedSize]
      exact replaceAt_follows env inside size later

end Mutation

end Checked

/-- A selector finds a point below the root where there is one, and passes every check. -/
structure Selector.Safe (ρ : Type) [RandomSource ρ] (selector : Selector) (program : Program) :
    Prop where
  point : 0 < program.size → ∀ source : ρ, program.HasCut (selector.select program source).1
  select : (Checked.select program selector : Checked ρ Nat).Yields fun source =>
    selector.select program source

theorem Selector.safe (selector : Selector) (program : Program) : selector.Safe ρ program where
  point positive source := Program.hasCut_iff.mpr (selector.select_lt positive source)
  select := Checked.select_yields program selector

/-- A mutation finds the atom at the point selected and can replace it, and passes every check. -/
structure Mutation.Safe (mutation : Mutation) (selector : Selector) (env : Environment)
    (parent : Program) (source : ρ) :
    Prop where
  point : 0 < parent.size →
    (∃ old, parent.pointsAt? ((selector.select parent source).1 + 1) = some old) ∧
    ∀ new, ∃ child, parent.replace? ((selector.select parent source).1 + 1) new = some child
  mutate : ∃ result, mutation.mutate selector env parent source = .ok result ∧
    Checked.Mutation.mutate mutation selector env parent source = Checked.ofResult result

theorem Mutation.safe (mutation : Mutation) (selector : Selector) (env : Environment)
    (parent : Program) (source : ρ)
    (moderate : mutation.fair = true →
      ∀ old, parent.pointsAt? ((selector.select parent source).1 + 1) = some old →
      deviation mutation.fairRange old < UInt64.size / 4) :
        mutation.Safe selector env parent source where
  point positive := by
    obtain ⟨old, found⟩ := Program.exists_replacedAt (selector.select_lt positive source)
    obtain ⟨_, -, replaced⟩ := found old
    refine ⟨⟨old.points, replaced.pointsAt?⟩, fun new => ?_⟩
    obtain ⟨child, edited, -⟩ := found new
    exact ⟨child, edited⟩
  mutate := Checked.Mutation.mutate_follows mutation selector env parent source moderate

/-- The operators that draw stay inside of what they draw from. In crossover, selection and
mutation, in splitting points and in random atoms, code and integers every draw is below a positive
bound, no difference is negative, no position lies outside of its list, and a cut has its point
below the root: in checked steps they do just what they do without. Settings, programs and
generators are any at all, except that the deviation of a fair mutation is below a quarter of all
words. -/
theorem operators_safe :
    (∀ (settings : SinglePoint) (a b : Program), settings.Safe ρ a b) ∧
    (∀ (crossover : TwoPoint) (a b : Program), crossover.Safe ρ a b) ∧
    (∀ (selector : Selector) (program : Program), selector.Safe ρ program) ∧
    (∀ points parts,
      (Checked.decompose points parts : Checked ρ (List Nat)).Yields (decompose points parts)) ∧
    (∀ config, (Checked.randomInteger config : Checked ρ Int32).Yields (randomInteger config)) ∧
    (∀ env : Environment, (Checked.randomAtom env : Checked ρ Atom).Follows env.randomAtom ∧
      ∀ size, (Checked.randomCodeWithin env size size : Checked ρ Program).Follows
        (env.randomCode size)) ∧
    ∀ (mutation : Mutation) (selector : Selector) (env : Environment) (parent : Program)
      (source : ρ),
      (mutation.fair = true →
        ∀ old, parent.pointsAt? ((selector.select parent source).1 + 1) = some old →
          Mutation.deviation mutation.fairRange old < UInt64.size / 4) →
      mutation.Safe selector env parent source := by
  refine ⟨SinglePoint.safe, TwoPoint.safe, Selector.safe, Checked.decompose_yields,
    Checked.randomInteger_yields, ?_, Mutation.safe⟩
  intro env
  exact ⟨env.randomAtom_follows, env.randomCode_follows⟩

/-- A mutation in checked steps, and an integer whose bounds are the wrong way round. -/
theorem operators_safe_script :
    let parent : Program := [.integer 1, .program [.integer 2, .integer 3], .integer 4]
    let source : Script := { draws := [1, 0] }
    let literals : Interpreter Script :=
      { instructions := .literals, machine := { random := source } }
    let named := literals.addInstruction "x" (.inputAt 0)
    Mutation.deviation (0.3 : Binary32) 3 < UInt64.size / 4 ∧
    (∃ rest, Checked.Mutation.mutate {} .uniform named.environment parent source =
      .ok [.integer 1, .program [.name "x"], .integer 4] rest) ∧
    ∃ rest, Checked.randomInteger { minInteger := 5, maxInteger := -5, integerStep := 0 } source =
      .ok 5 rest := by
  intro parent source literals named
  obtain ⟨-, -, -, -, integers, -, mutations⟩ := operators_safe (ρ := Script)
  have narrow : Mutation.deviation (0.3 : Binary32) 3 = 1 := by decide +kernel
  have moderate : Mutation.deviation (0.3 : Binary32) 3 < UInt64.size / 4 := by
    rw [narrow]
    decide
  have safe := mutations {} .uniform named.environment parent source (by
    rintro - old extent
    obtain rfl : 3 = old := Option.some.inj extent
    exact moderate)
  refine ⟨moderate, ?_, ?_⟩
  · obtain ⟨result, plain, checked⟩ := safe.mutate
    have sized : Mutation.fairSize (0.3 : Binary32) 3 { source with drawn := 1 } =
        .ok (2, { source with drawn := 2 }) := by
      simp only [Mutation.fairSize, narrow]
      rfl
    have chosen : ({} : Mutation).Chooses .uniform named.environment.config parent source 1 3 2
        { source with drawn := 2 } := {
      inside := by decide
      extent := rfl
      drawn := ⟨{ source with drawn := 1 }, rfl, (if_pos rfl).trans sized⟩
      allowed := by
        simp only [Mutation.Allows, narrow]
        decide }
    have mutated := plain.symm.trans chosen.mutate_eq
    obtain rfl := Except.ok.inj mutated
    exact ⟨_, checked⟩
  · exact ⟨_, integers { minInteger := 5, maxInteger := -5, integerStep := 0 } source⟩

end PushLang
