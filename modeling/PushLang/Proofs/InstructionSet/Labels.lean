import PushLang.Proofs.InstructionSet.Consistency

/-! Labels as a list. In the sets that lists make of the standard one the names of instructions are
ordinary: none is the label of a literal, names a family or asks for inputs. So whatever is eligible
is found under its label alone, and the list of the labels selects it again. -/

namespace PushLang

/-- A label as an entry of a list, where truth values are atoms of their own. -/
def Atom.ofLabel (label : String) : Atom :=
  if label = "true" then .boolean true else if label = "false" then .boolean false else .name label

theorem Entry.text?_ofLabel (label : String) : text? (Atom.ofLabel label) = some label := by
  unfold Atom.ofLabel
  split
  · rename_i same
    rw [same]
    rfl
  · split
    · rename_i same
      rw [same]
      rfl
    · rfl

variable {ρ : Type}

namespace InstructionSet

/-- The sets that lists make of the standard one, whether they succeed or fail. -/
inductive Configured : InstructionSet ρ → Prop where
  | standard : Configured standard
  | configure {set : InstructionSet ρ} (before : Configured set) (list : Program) :
      Configured (set.configure list).2

theorem Configured.reachable {set : InstructionSet ρ} (configured : set.Configured) :
    set.Reachable := by
  induction configured with
  | standard => exact .standard
  | configure _ list ih => exact ih.configure list

/-- The labels of the generators of literals. -/
def literalLabels : List String := ["integer.erc", "float.erc", "true", "false"]

/-- A name that an entry of a list means by itself, and that no literal has. -/
structure IsOrdinary (name : String) : Prop where
  plain : Entry.IsPlain name
  noLiteral : name ∉ literalLabels

theorem isOrdinary_builtin (which : Builtin) : IsOrdinary which.name := by
  have all : (Builtin.all.all fun other =>
    !(Entry.familyLead.toList.isPrefixOf other.name.toList) &&
      !(Entry.inputsLead.toList.isPrefixOf other.name.toList) &&
        !(literalLabels.contains other.name)) = true := by
    decide +kernel
  have own := List.all_eq_true.mp all which which.mem_all
  simp only [Bool.and_eq_true, Bool.not_eq_true', ← Bool.not_eq_true, List.isPrefixOf_iff_prefix,
    List.contains_iff_mem] at own
  exact ⟨⟨own.1.1, own.1.2⟩, own.2⟩

theorem isOrdinary_inputName (index : Nat) : IsOrdinary (inputName index) := by
  have starts : "input.in".toList <+: (inputName index).toList := ⟨_, (toList_inputName index).symm⟩
  -- Two texts that start another one differ in no letter that both of them have.
  have apart (lead : String) (differs :
    ¬ lead.toList <+: "input.in".toList ∧ ¬ "input.in".toList <+: lead.toList) :
      ¬ lead.toList <+: (inputName index).toList :=
    fun other => (List.prefix_or_prefix_of_prefix other starts).elim differs.1 differs.2
  refine ⟨⟨apart _ (by decide), apart _ (by decide)⟩, fun member => ?_⟩
  have literals : ∀ label ∈ literalLabels, ¬ "input.in".toList <+: label.toList := by decide
  exact literals _ member starts

/-- Instructions have ordinary names, and literals are found under the labels that they start out
with. -/
structure HasLabels (set : InstructionSet ρ) : Prop where
  names : ∀ name, set.contains name = true → IsOrdinary name
  literals : ∀ label ∈ literalLabels,
    set.generator? label = (InstructionSet.literals : InstructionSet ρ).generator? label

theorem HasLabels.define {set : InstructionSet ρ} (labels : set.HasLabels) {name : String}
    (ordinary : IsOrdinary name) (instruction : Instruction ρ) :
    (set.define name instruction).HasLabels := by
  constructor
  · intro other known
    rcases (contains_define set name other instruction).mp known with rfl | before
    · exact ordinary
    · exact labels.names other before
  · intro label member
    rw [generator?_define, if_neg fun same : name = label => ordinary.noLiteral (same ▸ member)]
    exact labels.literals label member

theorem Configured.hasLabels {set : InstructionSet ρ} (configured : set.Configured) :
    set.HasLabels := by
  induction configured with
  | standard =>
    refine standard_keeps ⟨fun name known => ?_, fun _ _ => rfl⟩
      fun _ which labels => labels.define (isOrdinary_builtin which) _
    simp [contains, InstructionSet.literals] at known
  | configure _ list ih =>
    exact configure_keeps (fun _ index labels => labels.define (isOrdinary_inputName index) _)
      (fun _ _ labels => ⟨labels.names, labels.literals⟩) ih list

/-- A generator is found under its label, and the label means just that. -/
structure Finds (set : InstructionSet ρ) (generator : Generator) : Prop where
  found : set.generator? generator.label = some generator
  plain : Entry.IsPlain generator.label

theorem HasLabels.finds {set : InstructionSet ρ} (labels : set.HasLabels)
    (consistent : set.Consistent) {generator : Generator} (known : generator.IsKnown set) :
    set.Finds generator := by
  cases generator with
  | instruction name => exact ⟨consistent.named name known, (labels.names name known).plain⟩
  | integerConstant => exact ⟨labels.literals "integer.erc" (by decide), by decide, by decide⟩
  | floatConstant => exact ⟨labels.literals "float.erc" (by decide), by decide, by decide⟩
  | literal atom =>
    obtain ⟨value, rfl⟩ := known
    cases value with
    | true => exact ⟨labels.literals "true" (by decide), by decide, by decide⟩
    | false => exact ⟨labels.literals "false" (by decide), by decide, by decide⟩

theorem Finds.judge {set : InstructionSet ρ} {generator : Generator} (finds : set.Finds generator) :
    set.judge (Atom.ofLabel generator.label) = .ok ([generator], set) := by
  rw [judge_of_text set (Entry.text?_ofLabel generator.label), Entry.ofText_plain finds.plain]
  simp only [Except.bind, expand, finds.found]

/-- A list of labels selects the generators that have them, one for each entry. -/
theorem selectFrom_labels {set : InstructionSet ρ} {generators : List Generator}
    (finds : ∀ generator ∈ generators, set.Finds generator) (selected : List Generator) :
    set.selectFrom selected (generators.map fun generator => Atom.ofLabel generator.label) =
      (.ok (), { set with eligible := selected ++ generators }) := by
  induction generators generalizing selected with
  | nil => rw [List.append_nil]; rfl
  | cons generator generators ih =>
    obtain ⟨first, later⟩ := List.forall_mem_cons.mp finds
    rw [List.map_cons, selectFrom_cons_ok first.judge, ih later, List.append_assoc,
      List.singleton_append]

/-- What a list makes eligible in a set that lists have made of the standard one, its labels make
eligible again, in order and with repetitions: the list of the labels succeeds and leaves the set as
it is, with all its instructions. -/
theorem configure_labels {set : InstructionSet ρ} (configured : set.Configured) (list : Program) :
    let after := (set.configure list).2
    after.configure (after.eligible.map fun generator => Atom.ofLabel generator.label) =
      (.ok (), after) := by
  intro after
  have again : after.Configured := configured.configure list
  have consistent := again.reachable.consistent
  have finds : ∀ generator ∈ after.eligible, after.Finds generator :=
    fun generator member => again.hasLabels.finds consistent (consistent.drawn generator member)
  exact selectFrom_labels finds []

/-- A literal and inputs that are selected twice, after a list that has failed. -/
theorem configure_labels_twice :
    let set : InstructionSet Script :=
      (InstructionSet.standard.configure [.name "input.makeinputs1", .name "nothing"]).2
    let list : Program := [.boolean true, .name "input.makeinputs2", .name "input.makeinputs1"]
    let labels : Program := [.boolean true, .name "input.in0", .name "input.in1", .name "input.in0"]
    let after := (set.configure list).2
    set.Configured ∧ after.configure labels = (.ok (), after) := by
  intro set list labels after
  have configured : set.Configured := .configure .standard _
  have literal : set.Finds (.literal (.boolean true)) :=
    configured.hasLabels.finds configured.reachable.consistent ⟨true, rfl⟩
  -- Only the literal has to be found in the set; the inputs are listed as they are asked for.
  clear_value set
  have listed : (after.eligible.map fun generator => Atom.ofLabel generator.label) = labels := by
    have selected : after = (set.selectFrom [.literal (.boolean true)] list.tail).2 :=
      congrArg Prod.snd (selectFrom_cons_ok literal.judge [] list.tail)
    rw [selected]
    rfl
  exact ⟨configured, listed ▸ configure_labels configured list⟩

end InstructionSet

end PushLang
