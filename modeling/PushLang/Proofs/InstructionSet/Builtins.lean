import PushLang.InstructionSet.Selection
import PushLang.Interpreter.Basic
import PushLang.Proofs.Numeral.Integer

namespace PushLang

variable {ρ : Type}

theorem InstructionSet.toList_inputName (index : Nat) :
    (inputName index).toList = "input.in".toList ++ Numeral.ofNat index := by
  simp [inputName, Numeral.ofNat, Nat.repr]

namespace Builtin

/-- The list of all built-in instructions is complete. -/
theorem mem_all (which : Builtin) : which ∈ all := by
  have codeStacks (stack : CodeStack) : stack ∈ CodeStack.all := by cases stack <;> decide
  have kinds (kind : StackKind) : kind ∈ StackKind.all := by cases kind <;> decide
  cases which with
  | integer op =>
    have known : op ∈ IntegerOp.all := by cases op <;> decide
    simp [all, known]
  | float op =>
    have known : op ∈ FloatOp.all := by cases op <;> decide
    simp [all, known]
  | boolean op =>
    have known : op ∈ BooleanOp.all := by cases op <;> decide
    simp [all, known]
  | code op =>
    have known : op ∈ CodeOp.all := by cases op <;> decide
    simp [all, known]
  | constant kind =>
    have known : kind ∈ ConstantKind.all := by cases kind <;> decide
    simp [all, known]
  | quote | compareNext => simp [all]
  | noop stack | choose stack | randomCode stack => simp [all, codeStacks stack]
  | loop stack which =>
    have known : which ∈ Loop.all := by cases which <;> decide
    simp [all, codeStacks stack, known]
  | combinator which =>
    have known : which ∈ Combinator.all := by cases which <;> decide
    simp [all, known]
  | input op =>
    have known : op ∈ InputOp.every := by cases op <;> decide
    simp [all, known]
  | move kind op =>
    have known : op ∈ StackMove.all := by cases op <;> decide
    simp [all, kinds kind, known]
  | moveDeep kind op =>
    have known : op ∈ DepthMove.all := by cases op <;> decide
    simp [all, kinds kind, known]
  | depth kind => simp [all, kinds kind]
  | frame op =>
    have known : op ∈ FrameOp.all := by cases op <;> decide
    simp [all, known]

theorem nodup_names : (all.map name).Nodup := by decide +kernel

/-- No built-in instruction has the name of an input with a number. -/
theorem name_ne_inputName (which : Builtin) (index : Nat) :
    which.name ≠ InstructionSet.inputName index := by
  have apart : (all.all fun other => !("input.in".toList.isPrefixOf other.name.toList &&
      (other.name.toList.drop 8).any Char.isDigit)) = true := by decide +kernel
  intro same
  obtain ⟨first, rest, digits⟩ := List.exists_cons_of_ne_nil (Numeral.ofNat_ne_nil index)
  have digit := Numeral.isDigit_of_mem_ofNat (n := index) (c := first) (by simp [digits])
  have other := List.all_eq_true.mp apart which which.mem_all
  simp [same, InstructionSet.toList_inputName, digits, digit] at other

end Builtin

namespace InstructionSet

theorem get?_define (set : InstructionSet ρ) (name other : String) (instruction : Instruction ρ) :
    (set.define name instruction).get? other = if name = other then some instruction
      else set.get? other := by
  simp [get?, define, Std.ExtTreeMap.getElem?_insert]

/-- Every built-in instruction goes by its name. -/
def HasBuiltins (set : InstructionSet ρ) : Prop :=
  ∀ which : Builtin, set.get? which.name = some (.builtin which)

theorem execute_builtin [RandomSource ρ] {set : InstructionSet ρ} {context : Context}
    (builtins : set.HasBuiltins) (which : Builtin) :
    set.execute context (.name which.name) = which.run ⟨context, set.eligible⟩ := by
  simp only [execute, builtins which]
  rfl

private theorem get?_foldl_define (builtins : List Builtin) (set : InstructionSet ρ)
    (name : String) (absent : name ∉ builtins.map Builtin.name) :
    (builtins.foldl (fun set builtin => set.define builtin.name (.builtin builtin)) set).get? name =
      set.get? name := by
  induction builtins generalizing set with
  | nil => rfl
  | cons first rest ih =>
    simp only [List.map_cons, List.mem_cons, not_or] at absent
    rw [List.foldl_cons, ih _ absent.2, get?_define, if_neg (Ne.symm absent.1)]

private theorem get?_foldl_define_of_mem (builtins : List Builtin)
    (distinct : (builtins.map Builtin.name).Nodup) (set : InstructionSet ρ) (which : Builtin)
    (member : which ∈ builtins) :
    (builtins.foldl (fun set builtin => set.define builtin.name (.builtin builtin)) set).get?
      which.name =
      some (.builtin which) := by
  induction builtins generalizing set with
  | nil => simp at member
  | cons first rest ih =>
    obtain ⟨fresh, distinct⟩ := List.nodup_cons.mp distinct
    rcases List.mem_cons.mp member with rfl | later
    · rw [List.foldl_cons, get?_foldl_define _ _ _ fresh, get?_define, if_pos rfl]
    · exact ih distinct _ later

theorem hasBuiltins_standard : (standard : InstructionSet ρ).HasBuiltins := fun which =>
  get?_foldl_define_of_mem Builtin.all Builtin.nodup_names literals which which.mem_all

/-- What holds of the literals and is kept by the definition of a built-in instruction holds of the
standard set. -/
theorem standard_keeps {kept : InstructionSet ρ → Prop} (start : kept literals)
    (defined : ∀ set (which : Builtin), kept set → kept (set.define which.name (.builtin which))) :
    kept standard := by
  unfold standard
  generalize literals = set at start
  induction Builtin.all generalizing set with
  | nil => exact start
  | cons first rest ih => exact ih _ (defined set first start)

/-- A definition under a name of its own leaves the built-in instructions alone. -/
theorem HasBuiltins.define {set : InstructionSet ρ} (builtins : set.HasBuiltins) {name : String}
    (fresh : ∀ which : Builtin, which.name ≠ name) (instruction : Instruction ρ) :
    (set.define name instruction).HasBuiltins := by
  intro which
  rw [get?_define, if_neg (Ne.symm (fresh which)), builtins which]

section

variable {kept : InstructionSet ρ → Prop}
  (defined : ∀ set index, kept set → kept (set.define (inputName index) (.inputAt index)))

include defined

private theorem defineInputs_keeps {set : InstructionSet ρ} (holds : kept set) (count : Nat) :
    kept (set.defineInputs count) := by
  unfold InstructionSet.defineInputs
  induction List.range count generalizing set with
  | nil => exact holds
  | cons index rest ih => exact ih (defined set index holds)

private theorem expand_keeps {set after : InstructionSet ρ} (holds : kept set) {entry : Entry}
    {generators : List Generator} (expanded : set.expand entry = .ok (generators, after)) :
    kept after := by
  cases entry with
  | family kind =>
    cases expanded
    exact holds
  | inputs count =>
    cases expanded
    exact defineInputs_keeps defined holds count
  | single label =>
    simp only [expand] at expanded
    split at expanded
    · cases expanded
      exact holds
    · cases expanded

/-- What holds of a set, and of every set with another input defined or other generators chosen,
holds of the set that selecting by a list leaves behind, also where the list fails half way. -/
theorem configure_keeps (chosen : ∀ set eligible, kept set → kept { set with eligible })
    {set : InstructionSet ρ} (holds : kept set) (list : Program) : kept (set.configure list).2 := by
  suffices selecting : ∀ selected, kept (set.selectFrom selected list).2 from selecting []
  induction list generalizing set with
  | nil => exact fun selected => chosen set selected holds
  | cons atom rest ih =>
    intro selected
    unfold selectFrom
    cases named : Entry.ofAtom atom with
    | error cause => exact holds
    | ok entry =>
      cases expanded : set.expand entry with
      | error cause => simpa [Except.bind, expanded] using holds
      | ok result => simpa [Except.bind, expanded] using ih (expand_keeps defined holds expanded) _

end

theorem HasBuiltins.configure {set : InstructionSet ρ} (builtins : set.HasBuiltins)
    (list : Program) :
    (set.configure list).2.HasBuiltins :=
  configure_keeps (fun _ index held => held.define (fun which => which.name_ne_inputName index) _)
    (fun _ _ held => held) builtins list

end InstructionSet

end PushLang
