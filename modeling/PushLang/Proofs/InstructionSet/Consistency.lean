import PushLang.Proofs.Generation.Code
import PushLang.Proofs.InstructionSet.Selection

namespace PushLang

variable {ρ : Type}

/-- What a generator names is an instruction of the set; its literals are truth values. -/
def Generator.IsKnown (set : InstructionSet ρ) : Generator → Prop
  | .instruction name => set.contains name = true
  | .literal atom => ∃ value, atom = .boolean value
  | .integerConstant | .floatConstant => True

namespace InstructionSet

/-- One set comes from another by definitions and lists, whether these succeed or fail. -/
inductive LeadsTo (set : InstructionSet ρ) : InstructionSet ρ → Prop where
  | refl : LeadsTo set set
  | define {middle : InstructionSet ρ} (earlier : LeadsTo set middle) (name : String)
      (instruction : Instruction ρ) :
      LeadsTo set (middle.define name instruction)
  | add {middle : InstructionSet ρ} (earlier : LeadsTo set middle) (name : String)
      (instruction : Instruction ρ) :
      LeadsTo set (middle.add name instruction)
  | configure {middle : InstructionSet ρ} (earlier : LeadsTo set middle) (list : Program) :
      LeadsTo set (middle.configure list).2

/-- Instructions and generators fit together, and so do the generators that random code draws
from. -/
structure Consistent (set : InstructionSet ρ) : Prop where
  named : ∀ name, set.contains name = true → set.generator? name = some (.instruction name)
  labelled : ∀ label, ∀ generator ∈ set.generator? label, generator.label = label
  listed : ∀ label, ∀ generator ∈ set.generator? label, generator.IsKnown set
  drawn : ∀ generator ∈ set.eligible, generator.IsKnown set

theorem contains_define (set : InstructionSet ρ) (name other : String)
    (instruction : Instruction ρ) :
    (set.define name instruction).contains other = true ↔
      name = other ∨ set.contains other = true := by
  rw [contains_iff, contains_iff, get?_define]
  split <;> simp [*]

theorem contains_defineInputs {set : InstructionSet ρ} {name : String}
    (known : set.contains name = true) (count : Nat) :
    (set.defineInputs count).contains name = true := by
  induction count with
  | zero => exact known
  | succ count ih =>
    rw [defineInputs_succ]
    exact (contains_define _ _ _ _).mpr (.inr ih)

theorem contains_extendedBy {set : InstructionSet ρ} {name : String}
    (known : set.contains name = true) (front : Program) :
    (set.extendedBy front).contains name = true := by
  induction front generalizing set with
  | nil => exact known
  | cons atom front ih => exact ih (contains_defineInputs known (inputCount atom))

/-- Selecting by a list extends the set by the front of the list or by all of it; no more than the
eligible generators are exchanged besides. -/
theorem exists_configure_eq (set : InstructionSet ρ) (list : Program) :
    ∃ front eligible, (set.configure list).2 = { set.extendedBy front with eligible } ∧
      (eligible = set.eligible ∨ set.Selection front eligible) := by
  rcases set.selectFrom_cases .nil list with ⟨generators, selection, ended⟩
    | ⟨front, _, _, _, _, _, _, ended⟩
  · exact ⟨list, generators, congrArg Prod.snd ended, .inr selection⟩
  · have kept := (set.extends_extendedBy front).eligible
    refine ⟨front, set.eligible, (congrArg Prod.snd ended).trans ?_, .inl rfl⟩
    rw [← kept]
    rfl

theorem LeadsTo.contains {set later : InstructionSet ρ} (leads : set.LeadsTo later) {name : String}
    (known : set.contains name = true) : later.contains name = true := by
  induction leads with
  | refl => exact known
  | define _ _ _ ih => exact (contains_define _ _ _ _).mpr (.inr ih)
  | add _ _ _ ih => exact (contains_define _ _ _ _).mpr (.inr ih)
  | @configure middle _ list ih =>
    obtain ⟨front, eligible, same, -⟩ := middle.exists_configure_eq list
    rw [same]
    exact contains_extendedBy ih front

end InstructionSet

theorem Generator.IsKnown.mono {set later : InstructionSet ρ} {generator : Generator}
    (known : generator.IsKnown set)
    (names : ∀ name, set.contains name = true → later.contains name = true) :
    generator.IsKnown later := by
  cases generator with
  | instruction name => exact names name known
  | literal atom => exact known
  | integerConstant | floatConstant => trivial

namespace InstructionSet

theorem IsFamily.isKnown_of_mem {kind : String} {literals : List Generator}
    (known : IsFamily kind literals) (set : InstructionSet ρ) :
    ∀ generator ∈ literals, generator.IsKnown set := by
  cases known <;> simp [Generator.IsKnown]

namespace Consistent

variable {set : InstructionSet ρ}

theorem define (consistent : set.Consistent) (name : String) (instruction : Instruction ρ) :
    (set.define name instruction).Consistent := by
  have stays (other : String) (known : set.contains other = true) :
      (set.define name instruction).contains other = true :=
    (contains_define set name other instruction).mpr (.inr known)
  have generators (label : String) (generator : Generator)
      (member : generator ∈ (set.define name instruction).generator? label) :
      (name = label ∧ generator = .instruction name) ∨ generator ∈ set.generator? label := by
    rw [generator?_define] at member
    split at member
    · rename_i same
      exact .inl ⟨same, (Option.mem_some_iff.mp member).symm⟩
    · exact .inr member
  constructor
  · intro other known
    rw [generator?_define]
    split
    · rename_i same
      rw [same]
    · rename_i apart
      exact consistent.named other (((contains_define set name other instruction).mp
        known).resolve_left apart)
  · intro label generator member
    rcases generators label generator member with ⟨rfl, rfl⟩ | before
    · rfl
    · exact consistent.labelled label generator before
  · intro label generator member
    rcases generators label generator member with ⟨rfl, rfl⟩ | before
    · exact (contains_define set name name instruction).mpr (.inl rfl)
    · exact (consistent.listed label generator before).mono stays
  · exact fun generator member => (consistent.drawn generator member).mono stays

theorem add (consistent : set.Consistent) (name : String) (instruction : Instruction ρ) :
    (set.add name instruction).Consistent := by
  have defined := consistent.define name instruction
  refine ⟨defined.named, defined.labelled, defined.listed, fun generator member => ?_⟩
  rcases List.mem_append.mp member with before | last
  · exact defined.drawn generator before
  · obtain rfl := List.mem_singleton.mp last
    exact (contains_define set name name instruction).mpr (.inl rfl)

theorem empty : ({} : InstructionSet ρ).Consistent :=
  ⟨by simp [contains], by simp [generator?], by simp [generator?], by simp⟩

theorem literals : (literals : InstructionSet ρ).Consistent := by
  have generators (label : String) (generator : Generator)
      (member : generator ∈ (InstructionSet.literals : InstructionSet ρ).generator? label) :
      generator.label = label ∧ generator.IsKnown (InstructionSet.literals : InstructionSet ρ) := by
    simp only [generator?, InstructionSet.literals, Std.ExtTreeMap.ofList_cons,
      Std.ExtTreeMap.insertMany_cons, Std.ExtTreeMap.insertMany_nil, Std.ExtTreeMap.getElem?_insert]
      at member
    have texts : (Atom.boolean true).text = "true" ∧ (Atom.boolean false).text = "false" :=
      ⟨rfl, rfl⟩
    grind [Generator.IsKnown, Generator.label]
  exact ⟨by simp [contains, InstructionSet.literals],
    fun label generator member => (generators label generator member).1,
    fun label generator member => (generators label generator member).2, by
    simp [InstructionSet.literals]⟩

theorem standard : (standard : InstructionSet ρ).Consistent :=
  standard_keeps literals fun _ which consistent => consistent.define which.name (.builtin which)

theorem defineInputs (consistent : set.Consistent) (count : Nat) :
    (set.defineInputs count).Consistent := by
  induction count with
  | zero => exact consistent
  | succ count ih =>
    rw [defineInputs_succ]
    exact ih.define _ _

theorem extendedBy (consistent : set.Consistent) (front : Program) :
    (set.extendedBy front).Consistent := by
  induction front generalizing set with
  | nil => exact consistent
  | cons atom front ih => exact ih (consistent.defineInputs (inputCount atom))

/-- What an entry stands for is known once its inputs are defined. -/
theorem isKnown_of_expands (consistent : set.Consistent) {atom : Atom} {generators : List Generator}
    (expanded : set.Expands atom generators) :
    ∀ generator ∈ generators, generator.IsKnown (set.defineInputs (inputCount atom)) := by
  intro generator member
  cases expanded with
  | family known sorted registered =>
    rcases List.mem_append.mp member with named | literal
    · obtain ⟨name, listed, rfl⟩ := List.mem_map.mp named
      exact contains_defineInputs ((registered name).mp listed).1 _
    · exact known.isKnown_of_mem _ generator literal
  | unknownFamily unknown => cases member
  | inputs number =>
    obtain ⟨index, within, rfl⟩ := List.mem_map.mp member
    have input := hasInput_defineInputs set (List.mem_range.mp within)
    rw [inputCount_inputs, number]
    exact (contains_iff _ _).mpr (by rw [Option.getD_some, input.1]; rfl)
  | single named plain found =>
    obtain rfl := List.mem_singleton.mp member
    exact (consistent.listed _ _ found).mono fun name known => contains_defineInputs known _

theorem isKnown_of_selection (consistent : set.Consistent) {list : Program}
    {generators : List Generator} (selection : set.Selection list generators) :
    ∀ generator ∈ generators, generator.IsKnown (set.extendedBy list) := by
  induction selection with
  | nil => simp
  | @snoc front atom generators more _ expanded ih =>
    rw [extendedBy_append]
    refine List.forall_mem_append.mpr ⟨fun generator member => ?_, ?_⟩
    · exact (ih generator member).mono fun name known => contains_extendedBy known [atom]
    · exact (consistent.extendedBy front).isKnown_of_expands expanded

theorem configure (consistent : set.Consistent) (list : Program) :
    (set.configure list).2.Consistent := by
  obtain ⟨front, eligible, same, chosen⟩ := set.exists_configure_eq list
  have extended := consistent.extendedBy front
  rw [same]
  refine ⟨extended.named, extended.labelled, extended.listed, ?_⟩
  rcases chosen with rfl | selection
  · exact fun generator member => (consistent.drawn generator member).mono fun name known =>
      contains_extendedBy known front
  · exact consistent.isKnown_of_selection selection

end Consistent

theorem Reachable.consistent {set : InstructionSet ρ} (reachable : set.Reachable) :
    set.Consistent := by
  induction reachable with
  | empty => exact .empty
  | literals => exact .literals
  | standard => exact .standard
  | define _ name instruction ih => exact ih.define name instruction
  | add _ name instruction ih => exact ih.add name instruction
  | configure _ list ih => exact ih.configure list

end InstructionSet

variable {σ : Type} [RandomSource σ]

theorem Generator.IsKnown.contains {set : InstructionSet ρ} {generator : Generator}
    (known : generator.IsKnown set) {config : Config} {source : σ} {name : String}
    (made : (generator.generate config source).1 = .name name) :
    set.contains name = true := by
  cases generator with
  | instruction own =>
    obtain rfl : own = name := Atom.name.inj made
    exact known
  | literal atom =>
    obtain ⟨value, rfl⟩ := known
    cases made
  | integerConstant | floatConstant => cases made

namespace Environment

variable {env : Environment}

/-- An atom that is a leaf of random code, or is drawn by itself. -/
def Draws (σ : Type) [RandomSource σ] (env : Environment) (atom : Atom) : Prop :=
  (∃ (size : Nat) (source rest : σ) (program : Program),
      env.randomCode size source = .ok program rest ∧ atom ∈ program.leaves) ∨
    ∃ source rest : σ, env.randomAtom source = .ok atom rest

theorem makes_of_randomCode (leaves : env.MakesLeaves σ) {size : Nat} {source rest : σ}
    {program : Program} (made : env.randomCode size source = .ok program rest) :
    ∀ leaf ∈ program.leaves, env.Makes σ leaf := by
  by_cases impossible : 2 ≤ size ∧ env.eligible = []
  · obtain ⟨after, failed, -⟩ :=
      randomCodeWithin_refuses impossible.2 size size impossible.1 (Nat.le_refl size) source
    rw [show env.randomCode size source = _ from failed] at made
    cases made
  · obtain ⟨other, after, drawn, -, grown⟩ := exists_randomCode leaves impossible source
    rw [made] at drawn
    cases drawn
    exact grown.made

theorem makes_of_randomAtom {source rest : σ} {atom : Atom}
    (made : env.randomAtom source = .ok atom rest) :
    env.Makes σ atom := by
  by_cases none : env.eligible = []
  · obtain ⟨after, failed, -⟩ := randomAtom_refuses none source
    rw [failed] at made
    cases made
  · obtain ⟨other, after, drawn, own⟩ := randomAtom_gives none source
    rw [made] at drawn
    cases drawn
    exact own

theorem Draws.makes (leaves : env.MakesLeaves σ) {atom : Atom} (drawn : env.Draws σ atom) :
    env.Makes σ atom := by
  rcases drawn with ⟨size, source, rest, program, made, member⟩ | ⟨source, rest, made⟩
  · exact makes_of_randomCode leaves made atom member
  · exact makes_of_randomAtom made

end Environment

namespace InstructionSet

variable [RandomSource ρ]

theorem execute_known {set : InstructionSet ρ} {name : String} (known : set.contains name = true)
    (context : Context) : ∃ instruction, set.get? name = some instruction ∧
      set.execute context (.name name) =
        instruction.run ⟨⟨context, set.eligible⟩, context.counts⟩ := by
  obtain ⟨instruction, found⟩ := Option.isSome_iff_exists.mp ((contains_iff set name).mp known)
  exact ⟨instruction, found, by simp only [execute, found, view]⟩

/-- In every set that definitions and lists lead to, an instruction has the generator of its name,
generators go by their labels, what is eligible by name is an instruction, and no name is ever lost.
So a name in random code stands for an instruction then and later, and executing it runs that
instruction. -/
theorem registries_consistent (set : InstructionSet ρ) (reachable : set.Reachable) :
    (∀ name, set.contains name = true → set.generator? name = some (.instruction name)) ∧
    (∀ label, ∀ generator ∈ set.generator? label, generator.label = label) ∧
    (∀ name, .instruction name ∈ set.eligible → set.contains name = true) ∧
    (∀ later, set.LeadsTo later → ∀ name, set.contains name = true → later.contains name = true) ∧
    ∀ config name, (Environment.mk config set.eligible).Draws σ (.name name) →
      ∀ later, set.LeadsTo later → ∀ context, ∃ instruction, later.get? name = some instruction ∧
        later.execute context (.name name) =
          instruction.run ⟨⟨context, later.eligible⟩, context.counts⟩ := by
  have consistent := reachable.consistent
  refine ⟨consistent.named, consistent.labelled, fun name member => consistent.drawn _ member,
    fun later leads name known => leads.contains known, fun config name drawn later leads context =>
    ?_⟩
  obtain ⟨generator, member, source, made⟩ :=
    drawn.makes (Environment.makesLeaves_of_reachable reachable config)
  have known : set.contains name = true := (consistent.drawn generator member).contains made
  exact execute_known (leads.contains known) context

/-- An instruction in the place of a literal, and a list that fails after it has defined an
input. -/
theorem registries_consistent_failure :
    let failing : Program := [.name "input.makeinputs1", .name "nothing"]
    let set : InstructionSet Script :=
      ((InstructionSet.literals.define "true" (.inputAt 3)).configure failing).2.add "x"
        (.inputAt 5)
    let later : InstructionSet Script := (set.configure [.name "true"]).2
    set.Reachable ∧ set.generator? "true" = some (.instruction "true") ∧
      set.generator? "input.in0" = some (.instruction "input.in0") ∧
      (Environment.mk {} set.eligible).Draws Script (.name "x") ∧ set.LeadsTo later ∧
      ∃ instruction, later.get? "x" = some instruction ∧
        later.execute {} (.name "x") = instruction.run ⟨⟨{}, later.eligible⟩, {}⟩ := by
  intro failing set later
  have reachable : set.Reachable := .add (.configure (.define .literals _ _) _) _ _
  obtain ⟨named, -, -, -, random⟩ := registries_consistent (σ := Script) set reachable
  have drawn : (Environment.mk {} set.eligible).Draws Script (.name "x") := by
    refine .inr ⟨{}, { drawn := 1 }, ?_⟩
    rfl
  have leads : set.LeadsTo later := .configure .refl _
  exact ⟨reachable, named "true" rfl, named "input.in0" rfl, drawn, leads,
    random {} "x" drawn later leads {}⟩

end InstructionSet

end PushLang
