import PushLang.Proofs.InstructionSet.Builtins

namespace PushLang

/-- Whether a generator makes leaves only. -/
def Generator.isLeaf : Generator → Bool
  | .literal atom => !atom.isProgram
  | _ => true

variable {ρ : Type}

theorem Generator.isProgram_generate [RandomSource ρ] {generator : Generator}
    (leaf : generator.isLeaf = true) (config : Config) (source : ρ) :
    (generator.generate config source).1.isProgram = false := by
  cases generator with
  | instruction name | integerConstant | floatConstant => rfl
  | literal atom => simpa [isLeaf, generate] using leaf

namespace InstructionSet

/-- The sets that definitions and lists lead to, whether a list succeeds or fails. -/
inductive Reachable : InstructionSet ρ → Prop where
  | empty : Reachable {}
  | literals : Reachable literals
  | standard : Reachable standard
  | define {set : InstructionSet ρ} (before : Reachable set) (name : String)
      (instruction : Instruction ρ) :
      Reachable (set.define name instruction)
  | add {set : InstructionSet ρ} (before : Reachable set) (name : String)
      (instruction : Instruction ρ) :
      Reachable (set.add name instruction)
  | configure {set : InstructionSet ρ} (before : Reachable set) (list : Program) :
      Reachable (set.configure list).2

/-- None of the generators that a set lists or draws from makes anything but leaves. -/
structure MakesLeaves (set : InstructionSet ρ) : Prop where
  listed : ∀ label, ∀ generator ∈ set.generator? label, generator.isLeaf = true
  drawn : ∀ generator ∈ set.eligible, generator.isLeaf = true

theorem generator?_define (set : InstructionSet ρ) (name other : String)
    (instruction : Instruction ρ) :
    (set.define name instruction).generator? other =
      if name = other then some (.instruction name) else set.generator? other := by
  simp [generator?, define, Std.ExtTreeMap.getElem?_insert]

namespace MakesLeaves

variable {set : InstructionSet ρ}

theorem define (made : set.MakesLeaves) (name : String) (instruction : Instruction ρ) :
    (set.define name instruction).MakesLeaves := by
  refine ⟨fun label generator member => ?_, made.drawn⟩
  rw [generator?_define] at member
  split at member
  · obtain rfl := Option.mem_some_iff.mp member
    rfl
  · exact made.listed label generator member

theorem add (made : set.MakesLeaves) (name : String) (instruction : Instruction ρ) :
    (set.add name instruction).MakesLeaves := by
  refine ⟨(made.define name instruction).listed, fun generator member => ?_⟩
  rcases List.mem_append.mp member with before | last
  · exact made.drawn generator before
  · obtain rfl := List.mem_singleton.mp last
    rfl

theorem empty : ({} : InstructionSet ρ).MakesLeaves := ⟨by simp [generator?], by simp⟩

theorem literals : (literals : InstructionSet ρ).MakesLeaves := by
  refine ⟨fun label generator member => ?_, by simp [InstructionSet.literals]⟩
  simp only [generator?, InstructionSet.literals, Std.ExtTreeMap.ofList_cons,
    Std.ExtTreeMap.insertMany_cons, Std.ExtTreeMap.insertMany_nil, Std.ExtTreeMap.getElem?_insert]
    at member
  grind [Generator.isLeaf, Atom.isProgram]

theorem standard : (standard : InstructionSet ρ).MakesLeaves :=
  standard_keeps literals fun _ which made => made.define which.name (.builtin which)

theorem defineInputs (made : set.MakesLeaves) (count : Nat) :
    (set.defineInputs count).MakesLeaves := by
  unfold InstructionSet.defineInputs
  induction List.range count generalizing set with
  | nil => exact made
  | cons index rest ih => exact ih (made.define (inputName index) (.inputAt index))

private theorem isLeaf_of_mem_literalsOf {kind : String} {generator : Generator}
    (member : generator ∈ literalsOf kind) :
    generator.isLeaf = true := by
  unfold literalsOf at member
  grind [Generator.isLeaf, Atom.isProgram]

theorem expand (made : set.MakesLeaves) {entry : Entry} {generators : List Generator}
    {after : InstructionSet ρ} (expanded : set.expand entry = .ok (generators, after)) :
    after.MakesLeaves ∧ ∀ generator ∈ generators, generator.isLeaf = true := by
  cases entry with
  | family kind =>
    cases expanded
    refine ⟨made, fun generator member => ?_⟩
    unfold family at member
    split at member
    · rcases List.mem_append.mp member with named | literal
      · obtain ⟨name, -, rfl⟩ := List.mem_map.mp named
        rfl
      · exact isLeaf_of_mem_literalsOf literal
    · cases member
  | inputs count =>
    cases expanded
    refine ⟨made.defineInputs count, fun generator member => ?_⟩
    obtain ⟨index, -, rfl⟩ := List.mem_map.mp member
    rfl
  | single label =>
    simp only [InstructionSet.expand] at expanded
    split at expanded
    · rename_i generator found
      cases expanded
      refine ⟨made, fun other member => ?_⟩
      obtain rfl := List.mem_singleton.mp member
      exact made.listed label other found
    · cases expanded

theorem selectFrom (made : set.MakesLeaves) (list : Program) {selected : List Generator}
    (leaves : ∀ generator ∈ selected, generator.isLeaf = true) :
    (set.selectFrom selected list).2.MakesLeaves := by
  induction list generalizing set selected with
  | nil => exact ⟨made.listed, leaves⟩
  | cons atom rest ih =>
    unfold InstructionSet.selectFrom
    cases named : Entry.ofAtom atom with
    | error cause => exact made
    | ok entry =>
      cases expanded : set.expand entry with
      | error cause => simpa [Except.bind, expanded] using made
      | ok result =>
        obtain ⟨after, generators⟩ := made.expand expanded
        simpa [Except.bind, expanded] using ih after
          (List.forall_mem_append.mpr ⟨leaves, generators⟩)

theorem configure (made : set.MakesLeaves) (list : Program) : (set.configure list).2.MakesLeaves :=
  made.selectFrom list (by simp)

end MakesLeaves

theorem Reachable.makesLeaves {set : InstructionSet ρ} (reachable : set.Reachable) :
    set.MakesLeaves := by
  induction reachable with
  | empty => exact .empty
  | literals => exact .literals
  | standard => exact .standard
  | define _ name instruction ih => exact ih.define name instruction
  | add _ name instruction ih => exact ih.add name instruction
  | configure _ list ih => exact ih.configure list

end InstructionSet

end PushLang
