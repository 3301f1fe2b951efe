import Mathlib.Algebra.BigOperators.Group.List.Basic
import PushLang.Proofs.Generation.Code
import PushLang.Proofs.Random.Script

/-! What random code can be. Draws can be found for every program of listed names that has no empty
nested program, since points can be split into any sizes, in any order. -/

namespace PushLang

variable {ρ α β : Type} [RandomSource ρ] {limit : Nat}

/-- Some draws below a limit make a draw give a value, and it takes no others. -/
def Draw.CanGive (limit : Nat) (draw : Draw ρ α) (value : α) : Prop :=
  ∃ draws : List Nat, (∀ entry ∈ draws, entry < limit) ∧
    ∀ source later : ρ, Deals source draws later → draw source = .ok value later

namespace Draw.CanGive

theorem pure (value : α) : Draw.CanGive limit (Pure.pure value : Draw ρ α) value := by
  refine ⟨[], by simp, fun source later dealt => ?_⟩
  cases dealt
  rfl

theorem bind {first : Draw ρ α} {next : α → Draw ρ β} {value : α} {result : β}
    (start : first.CanGive limit value) (finish : (next value).CanGive limit result) :
    Draw.CanGive limit (first >>= next) result := by
  obtain ⟨draws, within, given⟩ := start
  obtain ⟨more, alsoWithin, followed⟩ := finish
  refine ⟨draws ++ more, List.forall_mem_append.mpr ⟨within, alsoWithin⟩,
    fun source later dealt => ?_⟩
  obtain ⟨middle, early, late⟩ := dealt.exists_middle
  rw [Draw.bind_ok (given source middle early) next]
  exact followed middle later late

theorem exists_script {draw : Draw Script α} {value : α} (given : draw.CanGive limit value) :
    ∃ draws : List Nat, (∀ entry ∈ draws, entry < limit) ∧
      draw { draws } = .ok value (({ draws } : Script).advance draws.length) := by
  obtain ⟨draws, within, given⟩ := given
  exact ⟨draws, within, given _ _ (Script.deals { draws } [] draws rfl rfl)⟩

end Draw.CanGive

/-- The draws that split points into some sizes. A single point that remains takes none. -/
def splitDraws : List Nat → List Nat
  | [] => []
  | size :: sizes => if (size :: sizes).sum = 1 then [] else (size - 1) :: splitDraws sizes

theorem lt_of_mem_splitDraws (sizes : List Nat) (positive : ∀ size ∈ sizes, 0 < size) :
    ∀ entry ∈ splitDraws sizes, entry < sizes.sum := by
  induction sizes with
  | nil => simp [splitDraws]
  | cons size sizes ih =>
    obtain ⟨first, others⟩ := List.forall_mem_cons.mp positive
    unfold splitDraws
    split
    · simp
    · refine List.forall_mem_cons.mpr ⟨?_, fun entry member => ?_⟩
      · rw [List.sum_cons]
        omega
      · have below := ih others entry member
        rw [List.sum_cons]
        omega

theorem splitWithin_of_deals {sizes : List Nat} (positive : ∀ size ∈ sizes, 0 < size)
    {steps parts : Nat} (enough : sizes.sum ≤ steps) (several : sizes.sum ≤ parts)
    {source later : ρ} (dealt : Deals source (splitDraws sizes) later) :
    splitWithin steps sizes.sum parts source = (sizes, later) := by
  induction sizes generalizing steps parts source with
  | nil =>
    cases dealt
    cases steps with
    | zero => rfl
    | succ steps => rfl
  | cons size sizes ih =>
    obtain ⟨first, others⟩ := List.forall_mem_cons.mp positive
    simp only [List.sum_cons] at enough several ⊢
    obtain ⟨fewer, rfl⟩ : ∃ fewer, steps = fewer + 1 := ⟨steps - 1, by omega⟩
    rw [splitWithin, if_neg (by omega)]
    unfold splitDraws at dealt
    rw [List.sum_cons] at dealt
    by_cases single : size + sizes.sum = 1
    · -- Every size takes a point, so that none is left for the others.
      rw [if_pos single] at dealt
      cases dealt
      have alone : sizes = [] := by
        cases sizes with
        | nil => rfl
        | cons other sizes =>
          have taken := others other List.mem_cons_self
          simp only [List.sum_cons] at single
          omega
      subst alone
      rw [if_pos (.inl single), single]
      simp only [List.sum_nil, Nat.add_zero] at single
      rw [single]
    · rw [if_neg single] at dealt
      cases dealt with
      | cons next rest =>
        have remaining :=
          ih others (show sizes.sum ≤ fewer by omega) (show sizes.sum ≤ parts - 1 by omega) rest
        rw [if_neg (by omega), next _ (by omega)]
        simp only [Nat.sub_add_cancel first, Nat.add_sub_cancel_left, remaining]

/-- Entries can each be exchanged with themselves. -/
theorem shuffleFrom_of_deals {entries : List Nat} (i count : Nat)
    (inside : i + count = entries.length) {source later : ρ}
    (dealt : Deals source (List.range' i count) later) :
    shuffleFrom i count entries source = (entries, later) := by
  induction count generalizing i source with
  | zero =>
    cases dealt
    rfl
  | succ count ih =>
    rw [List.range'_succ] at dealt
    cases dealt with
    | cons next rest =>
      have present : i < entries.length := by omega
      have same : swapEntries entries i i = entries := by
        simp only [swapEntries, List.getElem?_eq_getElem present, List.set_getElem_self]
      simp only [shuffleFrom, next _ present, same]
      exact ih (i + 1) (by omega) rest

/-- Points can be split into any positive sizes. -/
theorem decompose_of_deals {sizes : List Nat} (positive : ∀ size ∈ sizes, 0 < size)
    {source later : ρ} (dealt : Deals source (splitDraws sizes ++ List.range sizes.length) later) :
    decompose sizes.sum sizes.sum source = (sizes, later) := by
  obtain ⟨middle, splits, shuffles⟩ := dealt.exists_middle
  rw [List.range_eq_range'] at shuffles
  simp only [decompose, splitWithin_of_deals positive (Nat.le_refl _) (Nat.le_refl _) splits]
  exact shuffleFrom_of_deals 0 sizes.length (Nat.zero_add _) shuffles

theorem decompose_canGive {sizes : List Nat} (positive : ∀ size ∈ sizes, 0 < size)
    (within : sizes.sum ≤ limit) :
    Draw.CanGive limit (fun source : ρ =>
      let (sizes, source) := decompose sizes.sum sizes.sum source
      .ok sizes source) sizes := by
  refine ⟨splitDraws sizes ++ List.range sizes.length, List.forall_mem_append.mpr ⟨?_, ?_⟩,
    fun source later dealt => ?_⟩
  · exact fun entry member =>
      Nat.lt_of_lt_of_le (lt_of_mem_splitDraws sizes positive entry member) within
  · have fewer := List.length_le_sum_of_one_le sizes positive
    intro entry member
    have below := List.mem_range.mp member
    omega
  · simp only [decompose_of_deals positive dealt]

/-- A program of listed names, without empty nested programs. -/
structure Program.Consists (names : List String) (program : Program) : Prop where
  listed : ∀ leaf ∈ program.leaves, ∃ name ∈ names, leaf = .name name
  nonempty : ∀ body, .program body ∈ program.preorder → body ≠ []

theorem Program.Consists.nested {names : List String} {program body : Program}
    (consists : program.Consists names) (member : .program body ∈ program) :
    body ≠ [] ∧ body.Consists names := by
  obtain ⟨front, back, rfl⟩ := List.append_of_mem member
  obtain ⟨listed, nonempty⟩ := consists
  simp only [leaves_append, leaves_nested, List.forall_mem_append] at listed
  simp only [preorder_append, preorder_cons, Atom.preorder, List.mem_append, List.mem_cons]
    at nonempty
  exact ⟨nonempty body (.inr (.inl (.inl rfl))), listed.2.1,
    fun inner found => nonempty inner (.inr (.inl (.inr found)))⟩

theorem Program.Consists.leaf {names : List String} {program : Program} {atom : Atom}
    (consists : program.Consists names) (member : atom ∈ program) (leaf : atom.isProgram = false) :
    ∃ name ∈ names, atom = .name name := by
  obtain ⟨front, back, rfl⟩ := List.append_of_mem member
  exact consists.listed atom (by simp [leaves_leaf leaf])

theorem Program.sum_map_points (program : Program) :
    (program.map Atom.points).sum = program.size := by
  induction program with
  | nil => simp [size]
  | cons atom rest ih => simp only [List.map_cons, List.sum_cons, ih, size]

namespace Environment

variable {config : Config} {names : List String}

theorem randomAtom_canGive {name : String} (listed : name ∈ names) (within : names.length ≤ limit) :
    Draw.CanGive limit ((⟨config, names.map .instruction⟩ : Environment).randomAtom : Draw ρ Atom)
      (.name name) := by
  obtain ⟨index, inside, rfl⟩ := List.getElem_of_mem listed
  refine ⟨[index], by simp; omega, fun source later dealt => ?_⟩
  cases dealt with
  | cons next rest =>
    cases rest
    have present : (names.map Generator.instruction).isEmpty = false := by
      rw [List.isEmpty_eq_false_iff]
      exact List.ne_nil_of_length_pos (by rw [List.length_map]; omega)
    have found : (names.map Generator.instruction)[index]? = some (.instruction names[index]) := by
      simp [inside]
    simp only [randomAtom, present, Bool.false_eq_true, if_false, List.length_map, next _ inside,
      found, Generator.generate]

variable {env : Environment} {nested : Nat → Draw ρ Program}

theorem randomPart_canGive_leaf {atom : Atom} (leaf : atom.isProgram = false)
    (given : Draw.CanGive limit (env.randomAtom : Draw ρ Atom) atom) :
    Draw.CanGive limit (env.randomPart nested atom.points) [atom] := by
  rw [Atom.points_leaf leaf]
  exact given.bind ((Draw.CanGive.pure []).bind (.pure [atom]))

theorem randomPart_canGive_nested (deep : env.config.flatCode = false) {body : Program}
    (nonempty : body ≠ []) (given : (nested body.points).CanGive limit body) :
    Draw.CanGive limit (env.randomPart nested (Atom.program body).points) [.program body] := by
  have positive : 0 < body.size := by
    cases body with
    | nil => exact absurd rfl nonempty
    | cons atom rest =>
      have points := atom.points_pos
      simp only [Program.size]
      omega
  unfold randomPart
  rw [Atom.points_program, if_neg (by rw [Program.points]; omega), if_neg (by simp [deep])]
  exact given.bind (.pure [Atom.program body])

theorem randomParts_canGive {program : Program}
    (each : ∀ atom ∈ program, Draw.CanGive limit (env.randomPart nested atom.points) [atom]) :
    Draw.CanGive limit (env.randomParts nested (program.map Atom.points)) program := by
  induction program with
  | nil => exact .pure []
  | cons atom rest ih =>
    obtain ⟨first, others⟩ := List.forall_mem_cons.mp each
    exact first.bind ((ih others).bind (.pure (atom :: rest)))

/-- Code can be any program that can be made of its atoms one by one. -/
theorem randomCodeWithin_canGive_of_parts {depth : Nat} {program : Program}
    (within : program.points ≤ limit)
    (each : ∀ atom ∈ program,
      Draw.CanGive limit (env.randomPart (env.randomCodeWithin depth) atom.points :
      Draw ρ (List Atom)) [atom]) :
    Draw.CanGive limit (env.randomCodeWithin (depth + 1) program.points : Draw ρ Program)
      program := by
  have total : (program.map Atom.points).sum = program.points - 1 := program.sum_map_points
  have positive : ∀ size ∈ program.map Atom.points, 0 < size := by
    intro size member
    obtain ⟨atom, -, rfl⟩ := List.mem_map.mp member
    exact atom.points_pos
  have sizes := decompose_canGive (ρ := ρ) positive (show _ ≤ limit by omega)
  rw [total] at sizes
  exact sizes.bind (randomParts_canGive each)

/-- Nested code can be any program of listed names without empty nested programs. -/
theorem randomCodeWithin_canGive (deep : config.flatCode = false) (few : names.length ≤ limit)
    (depth : Nat) {program : Program} (consists : program.Consists names)
    (enough : program.points ≤ depth) (within : program.points ≤ limit) :
    Draw.CanGive limit
      ((⟨config, names.map .instruction⟩ : Environment).randomCodeWithin depth program.points :
        Draw ρ Program) program := by
  induction depth generalizing program with
  | zero => simp [Program.points] at enough
  | succ depth ih =>
    refine randomCodeWithin_canGive_of_parts within fun atom member => ?_
    have smaller := Program.points_le_size_of_mem member
    rw [Program.points] at enough within
    cases atom with
    | program body =>
      obtain ⟨nonempty, inner⟩ := consists.nested member
      rw [Atom.points_program] at smaller
      exact randomPart_canGive_nested deep nonempty (ih inner (by omega) (by omega))
    | integer | float | boolean | name =>
      obtain ⟨name, listed, same⟩ := consists.leaf member rfl
      exact randomPart_canGive_leaf rfl (same ▸ randomAtom_canGive listed few)

/-- Code can be any sequence of listed names, whether it is flat or not. -/
theorem randomCodeWithin_canGive_sequence (config : Config) (few : names.length ≤ limit)
    (depth : Nat) {sequence : List String} (listed : ∀ name ∈ sequence, name ∈ names)
    (within : sequence.length < limit) :
    Draw.CanGive limit
      ((⟨config, names.map .instruction⟩ : Environment).randomCodeWithin (depth + 1)
        (sequence.length + 1) : Draw ρ Program)
      (sequence.map .name) := by
  have points : Program.points (sequence.map .name) = sequence.length + 1 := by
    rw [Program.points, ← Program.sum_map_points, List.map_map]
    simp [Function.comp_def, Atom.points]
  rw [← points]
  refine randomCodeWithin_canGive_of_parts (by omega) fun atom member => ?_
  obtain ⟨name, own, rfl⟩ := List.mem_map.mp member
  exact randomPart_canGive_leaf rfl (randomAtom_canGive (listed name own) few)

/-- For every program of listed names without empty nested programs there is a script that random
code follows to just this program, unless code is flat. For every sequence of listed names there is
one that random code follows to this sequence, flat or not. The script is used up, and its draws
stay below the number of points or that of names. -/
theorem randomCode_covers (config : Config) (names : List String) :
    let env : Environment := ⟨config, names.map .instruction⟩
    (config.flatCode = false → ∀ program : Program, program.Consists names →
      ∃ draws : List Nat, (∀ entry ∈ draws, entry < max program.points names.length) ∧
        env.randomCode program.points ({ draws } : Script) =
          .ok program (({ draws } : Script).advance draws.length)) ∧
    ∀ sequence : List String, (∀ name ∈ sequence, name ∈ names) →
      ∃ draws : List Nat, (∀ entry ∈ draws, entry < max (sequence.length + 1) names.length) ∧
        env.randomCode (sequence.length + 1) ({ draws } : Script) =
          .ok (sequence.map .name) (({ draws } : Script).advance draws.length) := by
  intro env
  constructor
  · intro deep program consists
    have given := randomCodeWithin_canGive (ρ := Script) deep
      (Nat.le_max_right program.points names.length) program.points
      consists (Nat.le_refl _) (Nat.le_max_left _ _)
    exact given.exists_script
  · intro sequence listed
    have given := randomCodeWithin_canGive_sequence (ρ := Script) config
      (Nat.le_max_right (sequence.length + 1) names.length) sequence.length listed
        (Nat.le_max_left _ _)
    exact given.exists_script

/-- A nested program in another one, and a sequence with a repetition. -/
theorem randomCode_covers_nested :
    let names := ["integer.+", "exec.dup"]
    let program : Program :=
      [.program [.name "exec.dup", .program [.name "integer.+"]], .name "integer.+"]
    let nested : Environment := ⟨{}, names.map .instruction⟩
    let flat : Environment := ⟨{ flatCode := true }, names.map .instruction⟩
    program.Consists names ∧
      (∃ draws : List Nat, (∀ entry ∈ draws, entry < 6) ∧
        nested.randomCode 6 ({ draws } : Script) =
          .ok program (({ draws } : Script).advance draws.length)) ∧
      ∃ draws : List Nat, (∀ entry ∈ draws, entry < 4) ∧
        flat.randomCode 4 ({ draws } : Script) =
          .ok [.name "exec.dup", .name "integer.+", .name "exec.dup"]
            (({ draws } : Script).advance draws.length) := by
  intro names program nested flat
  have consists : program.Consists names := by
    constructor
    case listed => simp [program, names, Program.leaves, Atom.preorder, Atom.isProgram]
    case nonempty => simp [program, Atom.preorder]
  have covered := (randomCode_covers {} names).1 rfl program consists
  have sequences := (randomCode_covers { flatCode := true } names).2
    ["exec.dup", "integer.+", "exec.dup"] (by decide)
  exact ⟨consists, covered, sequences⟩

end Environment

end PushLang
