import PushLang.Interpreter.Setup
import PushLang.Proofs.InstructionSet.Selection
import PushLang.Proofs.Program.Lines

/-! Instruction lists as texts. A list is read in one group, so a text without parentheses selects
by its words one after the other. Whatever other parentheses a text has, it is not read at all or
has a nested program in it, which no list may have. -/

namespace PushLang

variable {ρ : Type}

namespace InstructionSet

theorem Refuses.exists_detail {set : InstructionSet ρ} {atom : Atom} {cause : Error}
    (refused : set.Refuses atom cause) :
    ∃ detail, cause = .config detail := by
  cases refused with
  | unnamed | badCount | unknown => exact ⟨_, rfl⟩

/-- A list that fails is refused with an error about lists, and the eligible generators stay as they
were. -/
theorem configure_error {set : InstructionSet ρ} {list : Program} {cause : Error}
    (failed : (set.configure list).1 = .error cause) :
    (∃ detail, cause = .config detail) ∧ (set.configure list).2.eligible = set.eligible := by
  rcases set.selectFrom_cases .nil list with ⟨generators, -, ended⟩
    | ⟨front, atom, back, first, -, -, refused, ended⟩
  · rw [configure, show set.selectFrom [] list = _ from ended] at failed
    cases failed
  · rw [configure, show set.selectFrom [] list = _ from ended] at failed ⊢
    obtain rfl : first = cause := Except.error.inj failed
    exact ⟨refused.exists_detail, (set.extends_extendedBy front).eligible⟩

/-- A list with a nested program in it fails. -/
theorem configure_of_mem_program (set : InstructionSet ρ) {list body : Program}
    (member : .program body ∈ list) :
    ∃ cause, (set.configure list).1 = .error cause := by
  obtain ⟨front, back, rfl⟩ := List.append_of_mem member
  exact exists_error_of_refuses (.unnamed rfl) [] back

end InstructionSet

namespace Interpreter

theorem loadList_eq (interpreter : Interpreter ρ) (text : String) :
    interpreter.loadList text = match Program.ofChars ('(' :: text.toList ++ [')']) with
      | .ok list => interpreter.configure list
      | .error cause => (.error cause, interpreter) := by
  have joined : Program.ofChars ('(' :: Text.joinLines text.toList ++ [')']) =
      Program.ofChars ('(' :: text.toList ++ [')']) := by
    rw [Program.ofChars, Program.ofChars, Program.tokens_group, Program.tokens_group,
      Program.tokens_joinLines]
  let configured : Except Error Program → Except Error Unit × Interpreter ρ
    | .ok list => interpreter.configure list
    | .error cause => (.error cause, interpreter)
  exact congrArg configured joined

theorem loadList_bare (interpreter : Interpreter ρ) {text : String}
    (bare : Program.IsBare text.toList) :
    interpreter.loadList text =
      interpreter.configure ((Text.words text.toList).map Atom.ofWord) := by
  rw [loadList_eq, Program.ofChars_group_bare bare]

/-- A failure to load leaves the interpreter as it was, but for inputs that the instruction set may
have got on the way. -/
structure Unselected (before after : Interpreter ρ) : Prop where
  others : after = { before with instructions := after.instructions }
  eligible : after.instructions.eligible = before.instructions.eligible

theorem loadList_refused {interpreter : Interpreter ρ} {text : String}
    (failed : (interpreter.loadList text).1 ≠ .ok ()) :
    (∃ detail, (interpreter.loadList text).1 = .error (.parse detail) ∨
      (interpreter.loadList text).1 = .error (.config detail)) ∧
        interpreter.Unselected (interpreter.loadList text).2 := by
  rw [loadList_eq] at failed ⊢
  cases read : Program.ofChars ('(' :: text.toList ++ [')']) with
  | error cause =>
    obtain ⟨detail, rfl⟩ := Program.ofChars_error read
    exact ⟨⟨detail, .inl rfl⟩, rfl, rfl⟩
  | ok list =>
    rw [read] at failed
    cases outcome : (interpreter.configure list).1 with
    | ok _ => exact absurd outcome failed
    | error cause =>
      obtain ⟨⟨detail, rfl⟩, kept⟩ := InstructionSet.configure_error outcome
      exact ⟨⟨detail, .inr rfl⟩, rfl, kept⟩

theorem loadList_of_parentheses (interpreter : Interpreter ρ) {text : String}
    (parenthesized : ¬ Program.IsBare text.toList) :
    ∃ cause, (interpreter.loadList text).1 = .error cause := by
  rw [loadList_eq]
  cases read : Program.ofChars ('(' :: text.toList ++ [')']) with
  | error cause => exact ⟨cause, rfl⟩
  | ok list =>
    obtain ⟨body, member⟩ := Program.exists_program_of_group parenthesized read
    exact interpreter.instructions.configure_of_mem_program member

/-- Loading the instruction list in a file succeeds just if its text has no parentheses and the set
can be configured by the list of its words, in order over all lines, and then does just that. In any
other case it answers with an error about the text or the list, and leaves the eligible generators
and everything outside of the instruction set as they were. -/
theorem loadListFile_exact (interpreter : Interpreter ρ) (read : ReadFile Id) (path text : String)
    (present : read path = .ok text) :
    let list := (Text.words text.toList).map Atom.ofWord
    let loaded := (interpreter.loadListFile read path).run
    (loaded.1 = .ok () ↔
      ('(' ∉ text.toList ∧ ')' ∉ text.toList) ∧ (interpreter.configure list).1 = .ok ()) ∧
      (loaded.1 = .ok () → loaded = interpreter.configure list) ∧
      (loaded.1 ≠ .ok () →
        (∃ detail, loaded.1 = .error (.parse detail) ∨ loaded.1 = .error (.config detail)) ∧
        interpreter.Unselected loaded.2) := by
  intro list loaded
  have loads : loaded = interpreter.loadList text := by
    simp only [loaded, loadListFile, present]
    rfl
  rw [loads]
  by_cases bare : Program.IsBare text.toList
  · have configured := interpreter.loadList_bare bare
    exact ⟨⟨fun passed => ⟨bare, configured ▸ passed⟩, fun ⟨_, passed⟩ => configured ▸ passed⟩,
      fun _ => configured, loadList_refused⟩
  · obtain ⟨cause, failed⟩ := interpreter.loadList_of_parentheses bare
    have never : (interpreter.loadList text).1 ≠ .ok () := by simp [failed]
    exact ⟨⟨fun passed => absurd passed never, fun ⟨free, _⟩ => absurd free bare⟩,
      fun passed => absurd passed never, loadList_refused⟩

/-- Lines that end in different ways, and parentheses that make up two groups with those around the
text. -/
theorem loadListFile_exact_lines :
    let interpreter : Interpreter Script :=
      { instructions := .literals, machine := { random := {} } }
    let lines := "true\r\n\u3000false\nfloat.erc\r"
    let groups := ") true ("
    let files : ReadFile Id := fun path => if path = "lines" then .ok lines else .ok groups
    let loaded := (interpreter.loadListFile files "lines").run
    (loaded.1 = .ok () ∧ loaded.2.instructions.eligible =
      [.literal (.boolean true), .literal (.boolean false), .floatConstant]) ∧
    ∃ detail, (interpreter.loadListFile files "groups").run.1 = .error (.parse detail) ∨
      (interpreter.loadListFile files "groups").run.1 = .error (.config detail) := by
  intro interpreter lines groups files loaded
  obtain ⟨accepted, configured, -⟩ := interpreter.loadListFile_exact files "lines" lines rfl
  obtain ⟨grouped, -, refused⟩ := interpreter.loadListFile_exact files "groups" groups rfl
  have words : (Text.words lines.toList).map Atom.ofWord =
      [.boolean true, .boolean false, .name "float.erc"] := by
    decide +kernel
  rw [words] at accepted configured
  have passed := accepted.mpr ⟨by decide, rfl⟩
  refine ⟨⟨passed, ?_⟩, (refused fun passed => ?_).1⟩
  · rw [show loaded = _ from configured passed]
    rfl
  · exact absurd (grouped.mp passed).1.1 (by decide)

end Interpreter

end PushLang
