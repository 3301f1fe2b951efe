import PushLang.Breeding.Mutation
import PushLang.Interpreter.Basic
import PushLang.Proofs.Generation.Code
import PushLang.Proofs.Program.Replacement

namespace PushLang

namespace Program

/-- One program is another with a different atom at a point, in the same surroundings. -/
def ReplacedAt (point : Nat) (old new : Atom) (parent child : Program) : Prop :=
  ∃ (around : Surroundings) (front back : List Atom), point = around.offset + size front + 1 ∧
    parent = around.fill (front ++ old :: back) ∧ child = around.fill (front ++ new :: back)

theorem ReplacedAt.pointsAt? {point : Nat} {old new : Atom} {parent child : Program}
    (replaced : ReplacedAt point old new parent child) :
    parent.pointsAt? point = some old.points := by
  obtain ⟨around, front, back, rfl, rfl, -⟩ := replaced
  rw [pointsAt?_eq, around.extract?_fill, Option.map_some]

theorem ReplacedAt.points_le {point : Nat} {old new : Atom} {parent child : Program}
    (replaced : ReplacedAt point old new parent child) : old.points ≤ parent.size := by
  obtain ⟨around, front, back, -, rfl, -⟩ := replaced
  simp only [around.size_fill (_ ++ _), size_append, size]
  omega

theorem ReplacedAt.size_eq {point : Nat} {old new : Atom} {parent child : Program}
    (replaced : ReplacedAt point old new parent child) :
    child.size = parent.size - old.points + new.points := by
  obtain ⟨around, front, back, -, rfl, rfl⟩ := replaced
  simp only [around.size_fill (_ ++ _), size_append, size]
  omega

theorem exists_replacedAt {parent : Program} {cut : Nat} (inside : cut < parent.size) :
    ∃ old, ∀ new, ∃ child, parent.replace? (cut + 1) new = some child ∧
      ReplacedAt (cut + 1) old new parent child := by
  obtain ⟨around, front, old, back, rfl, rfl, located⟩ := parent.exists_locate? cut inside
  exact ⟨old, fun new => ⟨_, replace?_of_locate? located new, around, front, back, rfl, rfl, rfl⟩⟩

theorem lt_size_of_mem_cutsWhere {program : Program} {test : Atom → Bool} {cut : Nat}
    (member : cut ∈ program.cutsWhere test) : cut < program.size := by
  obtain ⟨⟨index, atom⟩, found, rfl⟩ := List.mem_map.mp member
  obtain ⟨first, last⟩ := index_of_mem_indexedPoints (List.mem_filter.mp found).1
  exact Nat.lt_of_lt_of_le (Nat.sub_lt first Nat.one_pos) last

end Program

variable {ρ : Type} [RandomSource ρ]

theorem Selector.lt_size_of_mem_pool {program : Program} {wantNested : Bool} {cut : Nat}
    (member : cut ∈ pool program wantNested) : cut < program.size := by
  simp only [pool] at member
  split at member <;> exact Program.lt_size_of_mem_cutsWhere member

theorem Selector.select_lt (selector : Selector) {program : Program} (positive : 0 < program.size)
    (source : ρ) :
    (selector.select program source).1 < program.size := by
  cases selector with
  | uniform =>
    simp only [select, if_neg (Nat.ne_of_gt positive)]
    exact RandomSource.below_lt _ source positive
  | byKind nestedProbability =>
    simp only [select]
    generalize wanted : decide ((unit source).1 < nestedProbability) = wantNested
    split
    · exact positive
    · rename_i present
      have inside := RandomSource.below_lt (pool program wantNested).length (unit source).2
        (List.length_pos_iff.mpr (by simpa using present))
      rw [List.getD_eq_getElem?_getD, List.getElem?_eq_getElem inside]
      exact lt_size_of_mem_pool (List.getElem_mem inside)

namespace Mutation

/-- The sizes of replacements for an atom of some points. -/
def Allows (mutation : Mutation) (config : Config) (old size : Nat) : Prop :=
  if mutation.fair = true then
    max 1 (old - deviation mutation.fairRange old) ≤ size ∧
      size ≤ old + deviation mutation.fairRange old - 1
  else 1 ≤ size ∧ size ≤ max 1 config.maxRandomCodeSize

theorem Allows.pos {mutation : Mutation} {config : Config} {old size : Nat}
    (allowed : mutation.Allows config old size) :
    0 < size := by
  unfold Allows at allowed
  split at allowed <;> omega

theorem deviation_pos (range : Binary32) (old : Nat) : 0 < deviation range old :=
  Nat.lt_of_lt_of_le Nat.one_pos (Nat.le_max_left 1 _)

/-- Below a quarter of all words a deviation leaves room for its double, and for a draw from that as
a signed word. -/
theorem fairSize_eq {range : Binary32} {old : Nat}
    (moderate : deviation range old < UInt64.size / 4) {source rest : ρ} {draw : Nat}
    (drawn : below (2 * deviation range old) source = (draw, rest)) :
    draw < 2 * deviation range old ∧
      fairSize range old source = .ok (max 1 (old + draw - deviation range old), rest) := by
  have wide := deviation_pos range old
  have words : UInt64.size = 18446744073709551616 := rfl
  have inside := RandomSource.below_lt (2 * deviation range old) source (by omega)
  rw [drawn] at inside
  refine ⟨inside, ?_⟩
  simp only [fairSize, if_neg (show ¬ UInt64.size ≤ 2 * deviation range old by omega), drawn,
    if_neg (show ¬ UInt64.size / 2 ≤ draw by omega)]

/-- A draw from twice the deviation moves the old size up by less than the deviation and down by no
more than it. -/
theorem fairSize_within {range : Binary32} {old : Nat} (positive : 0 < old)
    (moderate : deviation range old < UInt64.size / 4) (source : ρ) :
    ∃ size rest, fairSize range old source = .ok (size, rest) ∧
      max 1 (old - deviation range old) ≤ size ∧ size ≤ old + deviation range old - 1 := by
  obtain ⟨draw, rest, drawn⟩ : ∃ draw rest, below (2 * deviation range old) source = (draw, rest) :=
    ⟨_, _, rfl⟩
  have wide := deviation_pos range old
  obtain ⟨inside, sized⟩ := fairSize_eq moderate drawn
  exact ⟨_, rest, sized, by omega, by omega⟩

theorem newSize_allowed (mutation : Mutation) (config : Config) {old : Nat} (positive : 0 < old)
    (moderate : mutation.fair = true → deviation mutation.fairRange old < UInt64.size / 4)
    (source : ρ) :
    ∃ size rest, mutation.newSize config old source = .ok (size, rest) ∧
      mutation.Allows config old size := by
  unfold newSize Allows
  split
  · rename_i fair
    exact fairSize_within positive (moderate fair) source
  · have inside := RandomSource.below_lt (max 1 config.maxRandomCodeSize) source (by omega)
    obtain ⟨draw, rest, drawn⟩ :
        ∃ draw rest, below (max 1 config.maxRandomCodeSize) source = (draw, rest) :=
      ⟨_, _, rfl⟩
    rw [drawn] at inside
    exact ⟨draw + 1, rest, by rw [drawn], by omega, by omega⟩

variable {env : Environment}

/-- A replacement of one point is a leaf, and any other one a nested program of its size. -/
theorem replacement_gives (eligible : env.eligible ≠ []) (leaves : env.MakesLeaves ρ) {size : Nat}
    (positive : 0 < size) :
    (replacement env size : Draw ρ Atom).Gives fun new =>
      new.points = size ∧ new.isProgram = decide (size ≠ 1) := by
  unfold replacement
  split
  · rename_i single
    intro source
    obtain ⟨atom, rest, drawn, made⟩ := Environment.randomAtom_gives eligible source
    have leaf := leaves atom made
    exact ⟨atom, rest, drawn, by rw [Atom.points_leaf leaf, single], by simp [leaf, single]⟩
  · rename_i several
    refine (Environment.randomCodeWithin_gives eligible leaves size size (Nat.le_refl size)).bind
      fun body grown => .pure ?_
    refine ⟨?_, by simp [Atom.isProgram, several]⟩
    rw [Atom.points, grown.size_eq, Nat.sub_add_cancel positive]

theorem replacement_error (none : env.eligible = []) {size : Nat} (positive : 0 < size)
    (source : ρ) :
    ∃ rest, replacement env size source = .error noGenerators rest := by
  unfold replacement
  split
  · obtain ⟨rest, failed, -⟩ := Environment.randomAtom_refuses none source
    exact ⟨rest, failed⟩
  · obtain ⟨rest, failed, -⟩ :=
      Environment.randomCodeWithin_refuses none size size (by omega) (Nat.le_refl size) source
    exact ⟨rest, Draw.bind_error failed _⟩

/-- A child has a new atom in the place of an old one of its parent, a leaf if it takes up a single
point and else a nested program. -/
structure Replaces (point size : Nat) (old new : Atom) (parent child : Program) : Prop where
  points_eq : new.points = size
  isProgram_eq : new.isProgram = decide (size ≠ 1)
  replaced : parent.replace? point new = some child
  replacedAt : Program.ReplacedAt point old new parent child

theorem replaceAt_gives (eligible : env.eligible ≠ []) (leaves : env.MakesLeaves ρ)
    {parent : Program} {cut size : Nat}
    {old : Atom} (positive : 0 < size)
    (found : ∀ new, ∃ child, parent.replace? (cut + 1) new = some child ∧
      Program.ReplacedAt (cut + 1) old new parent child) :
    (replaceAt env parent cut size : Draw ρ Program).Gives fun result => ∃ new child,
      Replaces (cut + 1) size old new parent child ∧
      result = child.orParent parent env.config.maxPoints := by
  refine (replacement_gives eligible leaves positive).bind fun new ⟨points, kind⟩ => .pure ?_
  obtain ⟨child, replaced, same⟩ := found new
  exact ⟨new, child, ⟨points, kind, replaced, same⟩, by rw [replaced, Option.getD_some]⟩

theorem replaceAt_error (none : env.eligible = []) (parent : Program) (cut : Nat) {size : Nat}
    (positive : 0 < size) (source : ρ) :
    ∃ rest, replaceAt env parent cut size source = .error noGenerators rest := by
  obtain ⟨rest, failed⟩ := replacement_error none positive source
  exact ⟨rest, Draw.bind_error failed _⟩

/-- The cut that is selected, the points of the atom after it, and the size drawn for its
replacement. -/
structure Chooses (mutation : Mutation) (selector : Selector) (config : Config) (parent : Program)
    (source : ρ) (cut old size : Nat) (later : ρ) : Prop where
  inside : cut < parent.size
  extent : parent.pointsAt? (cut + 1) = some old
  drawn : ∃ rest, selector.select parent source = (cut, rest) ∧
    mutation.newSize config old rest = .ok (size, later)
  allowed : mutation.Allows config old size

theorem exists_chooses (mutation : Mutation) (selector : Selector) (config : Config)
    {parent : Program}
    (present : parent.size ≠ 0) (source : ρ)
    (moderate : mutation.fair = true →
      ∀ old, parent.pointsAt? ((selector.select parent source).1 + 1) = some old →
      deviation mutation.fairRange old < UInt64.size / 4) :
    ∃ cut old size later, mutation.Chooses selector config parent source cut old.points size later ∧
      ∀ new, ∃ child, parent.replace? (cut + 1) new = some child ∧
        Program.ReplacedAt (cut + 1) old new parent child := by
  have inside := selector.select_lt (Nat.pos_of_ne_zero present) source
  obtain ⟨cut, rest, selected⟩ : ∃ cut rest, selector.select parent source = (cut, rest) :=
    ⟨_, _, rfl⟩
  rw [selected] at inside moderate
  obtain ⟨old, found⟩ := Program.exists_replacedAt inside
  -- Any replacement shows which atom stands there.
  obtain ⟨_, -, replaced⟩ := found old
  obtain ⟨size, later, sized, allowed⟩ :=
    mutation.newSize_allowed config old.points_pos
      (fun fair => moderate fair _ replaced.pointsAt?) rest
  exact ⟨cut, old, size, later,
    ⟨inside, replaced.pointsAt?, ⟨rest, selected, sized⟩, allowed⟩, found⟩

theorem Chooses.mutate_eq {mutation : Mutation} {selector : Selector} {parent : Program}
    {source later : ρ} {cut old size : Nat}
    (chosen : mutation.Chooses selector env.config parent source cut old size later) :
    mutation.mutate selector env parent source = .ok (replaceAt env parent cut size later) := by
  obtain ⟨rest, selected, sized⟩ := chosen.drawn
  have present := Nat.ne_of_gt (Nat.zero_lt_of_lt chosen.inside)
  simp only [mutate, if_neg present, selected, chosen.extent, Option.getD_some, sized]
  rfl

/-- Mutation fails if its parent has points and there is no generator, and not otherwise. It selects
a point, draws a size that the settings allow for the atom there, and replaces that atom by one of
just that size. A parent without points stays as it is, and so does one whose child is over the
limit. A deviation below a quarter of all words leaves room for twice as much, and for a draw from
that as a signed word. -/
theorem mutate_replaces {σ : Type} (interpreter : Interpreter σ)
    (reachable : interpreter.instructions.Reachable)
    (mutation : Mutation) (selector : Selector) (parent : Program) (source : ρ)
    (moderate : mutation.fair = true →
      ∀ old, parent.pointsAt? ((selector.select parent source).1 + 1) = some old →
      deviation mutation.fairRange old < UInt64.size / 4) :
    let env := interpreter.environment
    (parent.size = 0 → mutation.mutate selector env parent source = .ok (.ok parent source)) ∧
    (parent.size ≠ 0 → env.eligible = [] → ∃ rest,
      mutation.mutate selector env parent source = .ok (.error noGenerators rest)) ∧
    (parent.size ≠ 0 → env.eligible ≠ [] → ∃ cut old size later new child result rest,
      mutation.mutate selector env parent source = .ok (.ok result rest) ∧
      mutation.Chooses selector env.config parent source cut old.points size later ∧
      Replaces (cut + 1) size old new parent child ∧
      old.points ≤ parent.size ∧ child.size = parent.size - old.points + size ∧
      (child.size ≤ env.config.maxPoints → result = child) ∧
        (env.config.maxPoints < child.size → result = parent)) := by
  intro env
  refine ⟨fun empty => if_pos empty, fun present none => ?_, fun present eligible => ?_⟩
  · obtain ⟨cut, old, size, later, chosen, -⟩ :=
      exists_chooses mutation selector env.config present source moderate
    obtain ⟨rest, failed⟩ := replaceAt_error none parent cut chosen.allowed.pos later
    exact ⟨rest, by rw [chosen.mutate_eq, failed]⟩
  · obtain ⟨cut, old, size, later, chosen, found⟩ :=
      exists_chooses mutation selector env.config present source moderate
    have leaves : env.MakesLeaves ρ :=
      Environment.makesLeaves_of_reachable reachable interpreter.config
    obtain ⟨result, rest, drawn, new, child, replaces, rfl⟩ :=
      replaceAt_gives eligible leaves chosen.allowed.pos found later
    refine ⟨cut, old, size, later, new, child, _, rest, by rw [chosen.mutate_eq, drawn], chosen,
      replaces, replaces.replacedAt.points_le, ?_, fun fits => ?_, fun large => ?_⟩
    · rw [replaces.replacedAt.size_eq, replaces.points_eq]
    · simp [Program.orParent, Program.fits, fits]
    · simp [Program.orParent, Program.fits, Nat.not_le.mpr large]

/-- A nested program of three points gives way to one of two; a set of literals has nothing to make
it from. -/
theorem mutate_replaces_script :
    let parent : Program := [.integer 1, .program [.integer 2, .integer 3], .integer 4]
    let source : Script := { draws := [1, 0] }
    let literals : Interpreter Script := { instructions := .literals, machine := { random := {} } }
    let named := literals.addInstruction "x" (.inputAt 0)
    deviation (0.3 : Binary32) 3 < UInt64.size / 4 ∧
      (∃ new child rest,
        ({} : Mutation).mutate .uniform named.environment parent source = .ok (.ok child rest) ∧
        new.points = 2 ∧ new.isProgram = true ∧ parent.replace? 2 new = some child ∧
          child.size = 4) ∧
      ∃ rest, ({} : Mutation).mutate .uniform literals.environment parent source =
        .ok (.error noGenerators rest) := by
  intro parent source literals named
  have moderate : deviation (0.3 : Binary32) 3 < UInt64.size / 4 := by decide +kernel
  have within : ({} : Mutation).fair = true → ∀ old,
      parent.pointsAt? ((Selector.select parent source .uniform).1 + 1) = some old →
      deviation ({} : Mutation).fairRange old < UInt64.size / 4 := by
    rintro - old extent
    obtain rfl : 3 = old := Option.some.inj extent
    exact moderate
  obtain ⟨-, -, success⟩ :=
    mutate_replaces named (.add .literals "x" (.inputAt 0)) {} .uniform parent source within
  obtain ⟨-, failure, -⟩ := mutate_replaces literals .literals {} .uniform parent source within
  obtain ⟨cut, old, size, later, new, child, result, rest, mutated, chosen, replaces, -, points,
      kept, -⟩ :=
    success (by decide) (by decide)
  obtain ⟨draws, selected, sized⟩ := chosen.drawn
  cases selected
  obtain three : 3 = old.points := Option.some.inj chosen.extent
  rw [← three] at sized points
  obtain rfl : 2 = size := congrArg Prod.fst (Except.ok.inj sized)
  obtain rfl := kept (by rw [points]; decide)
  exact ⟨moderate, ⟨new, result, rest, mutated, replaces.points_eq, replaces.isProgram_eq,
    replaces.replaced, points⟩, failure (by decide) rfl⟩

end Mutation

end PushLang
