import PushLang.Proofs.InstructionSet.Leaves
import PushLang.Random.Script

/-! What a list selects. Every entry is judged by the instructions known when its turn comes, which
are those of the set and the inputs that earlier entries defined; the first entry that is refused
ends the selection. -/

namespace PushLang

theorem Text.after?_eq_some {lead text rest : List Char} :
    after? lead text = some rest ↔ text = lead ++ rest := by
  unfold after?
  split
  · rename_i starts
    have whole := List.prefix_iff_eq_append.mp (List.isPrefixOf_iff_prefix.mp starts)
    constructor
    · intro same
      rw [← Option.some.inj same, whole]
    · rintro rfl
      rw [List.drop_left]
  · rename_i fails
    constructor
    · intro same
      cases same
    · rintro rfl
      exact absurd (List.isPrefixOf_iff_prefix.mpr (List.prefix_append lead rest)) fails

theorem Text.after?_eq_none {lead text : List Char} :
    after? lead text = none ↔ ¬ lead <+: text := by
  simp [after?, List.isPrefixOf_iff_prefix]

variable {ρ : Type}

namespace Entry

/-- The text that an atom has in a list. -/
def text? : Atom → Option String
  | .name text => some text
  | .boolean value => some (if value then "true" else "false")
  | .integer _ | .float _ | .program _ => none

/-- A text that neither names a family nor asks for inputs. -/
structure IsPlain (text : String) : Prop where
  noFamily : ¬ "registered.".toList <+: text.toList
  noInputs : ¬ "input.makeinputs".toList <+: text.toList

theorem textOf_of_text? {atom : Atom} {text : String} (named : text? atom = some text) :
    textOf atom = .ok text := by
  cases atom with
  | name other =>
    obtain rfl := Option.some.inj named
    rfl
  | boolean value =>
    obtain rfl := Option.some.inj named
    cases value <;> rfl
  | integer _ | float _ | program _ => cases named

theorem textOf_of_unnamed {atom : Atom} (unnamed : text? atom = none) :
    textOf atom = .error (.config ("instruction list must contain instruction names only, found " ++
      atom.text)) := by
  cases atom with
  | name _ | boolean _ => cases unnamed
  | integer _ | float _ | program _ => rfl

theorem ofText_family (kind : String) : ofText ("registered." ++ kind) = .ok (.family kind) := by
  have follows :
      Text.after? "registered.".toList ("registered." ++ kind).toList = some kind.toList :=
    Text.after?_eq_some.mpr String.toList_append
  simp only [ofText, familyLead, follows, String.ofList_toList]

/-- No text names a family and asks for inputs as well. -/
theorem not_prefix_family (digits : String) :
    ¬ "registered.".toList <+: ("input.makeinputs" ++ digits).toList := by
  rw [String.toList_append]
  rintro ⟨rest, same⟩
  have first := congrArg List.head? same
  simp at first

theorem ofText_inputs (digits : String) :
    ofText ("input.makeinputs" ++ digits) = match Numeral.word64? digits.toList with
      | some count => .ok (.inputs count)
      | none =>
        .error (.config ("bad input count in \"" ++ ("input.makeinputs" ++ digits) ++ "\"")) := by
  have noFamily := Text.after?_eq_none.mpr (not_prefix_family digits)
  have follows : Text.after? "input.makeinputs".toList ("input.makeinputs" ++ digits).toList =
      some digits.toList :=
    Text.after?_eq_some.mpr String.toList_append
  cases counted : Numeral.word64? digits.toList <;>
    simp only [ofText, familyLead, inputsLead, noFamily, follows, counted]

theorem ofText_plain {text : String} (plain : IsPlain text) : ofText text = .ok (.single text) := by
  simp only [ofText, familyLead, inputsLead, Text.after?_eq_none.mpr plain.noFamily,
    Text.after?_eq_none.mpr plain.noInputs]

/-- Only names name families and ask for inputs, since the texts of truth values are plain. -/
theorem eq_name_or_isPlain {atom : Atom} {text : String} (named : text? atom = some text) :
    atom = .name text ∨ IsPlain text := by
  cases atom with
  | name other => exact .inl (congrArg Atom.name (Option.some.inj named))
  | boolean value =>
    obtain rfl := Option.some.inj named
    cases value with
    | false => exact .inr ⟨by decide, by decide⟩
    | true => exact .inr ⟨by decide, by decide⟩
  | integer _ | float _ | program _ => cases named

theorem prefix_lead (lead rest : String) : lead.toList <+: (lead ++ rest).toList :=
  ⟨rest.toList, String.toList_append.symm⟩

theorem cases_text (text : String) :
    (∃ kind, text = "registered." ++ kind) ∨ (∃ digits, text = "input.makeinputs" ++ digits) ∨
      IsPlain text := by
  have split {lead : String} (starts : lead.toList <+: text.toList) :
      ∃ rest, text = lead ++ rest := by
    obtain ⟨rest, whole⟩ := starts
    refine ⟨String.ofList rest, String.toList_inj.mp ?_⟩
    rw [String.toList_append, String.toList_ofList, whole]
  by_cases family : "registered.".toList <+: text.toList
  · exact .inl (split family)
  · by_cases inputs : "input.makeinputs".toList <+: text.toList
    · exact .inr (.inl (split inputs))
    · exact .inr (.inr ⟨family, inputs⟩)

end Entry

namespace InstructionSet

/-- How many inputs an entry of a list defines. -/
def inputCount : Atom → Nat
  | .name text => ((Text.after? "input.makeinputs".toList text.toList).bind Numeral.word64?).getD 0
  | _ => 0

/-- A set with the inputs defined that the entries at the front of a list ask for. -/
def extendedBy (set : InstructionSet ρ) (front : Program) : InstructionSet ρ :=
  front.foldl (fun set atom => set.defineInputs (inputCount atom)) set

/-- The families of instructions, with the literals that each of them has besides. -/
inductive IsFamily : String → List Generator → Prop where
  | boolean : IsFamily "boolean" [.literal (.boolean true), .literal (.boolean false)]
  | integer : IsFamily "integer" [.integerConstant]
  | float : IsFamily "float" [.floatConstant]
  | exec : IsFamily "exec" []
  | code : IsFamily "code" []
  | name : IsFamily "name" []
  | input : IsFamily "input" []
  | frame : IsFamily "frame" []

/-- The generators that an entry of a list stands for. A family has its registered names in order,
and then its literals. -/
inductive Expands (set : InstructionSet ρ) : Atom → List Generator → Prop where
  | family {kind : String} {names : List String} {literals : List Generator}
      (known : IsFamily kind literals) (sorted : names.Pairwise (· < ·))
      (registered : ∀ name, name ∈ names ↔
        set.contains name = true ∧ (kind ++ ".").toList <+: name.toList) :
      Expands set (.name ("registered." ++ kind)) (names.map .instruction ++ literals)
  | unknownFamily {kind : String} (unknown : ∀ literals, ¬ IsFamily kind literals) :
      Expands set (.name ("registered." ++ kind)) []
  | inputs {digits : String} {count : Nat} (number : Numeral.word64? digits.toList = some count) :
      Expands set (.name ("input.makeinputs" ++ digits))
        ((List.range count).map fun index => .instruction (inputName index))
  | single {atom : Atom} {text : String} {generator : Generator}
      (named : Entry.text? atom = some text) (plain : Entry.IsPlain text)
      (found : set.generator? text = some generator) : Expands set atom [generator]

/-- Why an entry of a list is refused: it has no text, asks for no number of inputs, or has the
label of no generator. -/
inductive Refuses (set : InstructionSet ρ) : Atom → Error → Prop where
  | unnamed {atom : Atom} (unnamed : Entry.text? atom = none) :
      Refuses set atom (.config ("instruction list must contain instruction names only, found " ++
        atom.text))
  | badCount {digits : String} (noNumber : Numeral.word64? digits.toList = none) :
      Refuses set (.name ("input.makeinputs" ++ digits))
        (.config ("bad input count in \"" ++ ("input.makeinputs" ++ digits) ++ "\""))
  | unknown {atom : Atom} {text : String} (named : Entry.text? atom = some text)
      (plain : Entry.IsPlain text)
      (absent : set.generator? text = none) :
      Refuses set atom (.config ("unknown instruction \"" ++ text ++ "\" in instruction set"))

/-- The generators that a list stands for, every entry judged by the set as those before it extend
it. -/
inductive Selection (set : InstructionSet ρ) : Program → List Generator → Prop where
  | nil : Selection set [] []
  | snoc {front : Program} {atom : Atom} {generators more : List Generator}
      (earlier : Selection set front generators)
      (expanded : (set.extendedBy front).Expands atom more) :
        Selection set (front ++ [atom]) (generators ++ more)

theorem extendedBy_append (set : InstructionSet ρ) (front back : Program) :
    set.extendedBy (front ++ back) = (set.extendedBy front).extendedBy back := List.foldl_append

theorem contains_iff (set : InstructionSet ρ) (name : String) :
    set.contains name = true ↔ (set.get? name).isSome = true := by
  rw [contains, get?, Std.ExtTreeMap.contains_eq_isSome_getElem?]

theorem mem_namesAfter (set : InstructionSet ρ) (lead name : String) :
    name ∈ set.namesAfter lead ↔ set.contains name = true ∧ lead.toList <+: name.toList := by
  simp [namesAfter, names, contains, List.isPrefixOf_iff_prefix]

/-- The names of a family are in order, each of them once. -/
theorem pairwise_namesAfter (set : InstructionSet ρ) (lead : String) :
    (set.namesAfter lead).Pairwise (· < ·) := by
  have ordered : set.names.Pairwise fun a b => compare a b = .lt := Std.ExtTreeMap.ordered_keys
  exact (ordered.imp fun before => compareOfLessAndEq_eq_lt.mp before).filter _

theorem isFamily_literalsOf {kind : String} (known : kind ∈ families) :
    IsFamily kind (literalsOf kind) := by
  simp only [families, List.mem_cons, List.not_mem_nil, or_false] at known
  rcases known with rfl | rfl | rfl | rfl | rfl | rfl | rfl | rfl
  · exact .integer
  · exact .float
  · exact .boolean
  · exact .exec
  · exact .code
  · exact .name
  · exact .input
  · exact .frame

theorem IsFamily.mem_families {kind : String} {literals : List Generator}
    (known : IsFamily kind literals) : kind ∈ families := by
  cases known <;> decide

theorem expands_family (set : InstructionSet ρ) (kind : String) :
    set.Expands (.name ("registered." ++ kind)) (set.family kind) := by
  unfold InstructionSet.family
  split
  · rename_i known
    exact .family (isFamily_literalsOf known) (set.pairwise_namesAfter _) (set.mem_namesAfter _)
  · rename_i unknown
    exact .unknownFamily fun literals known => unknown known.mem_families

theorem inputCount_inputs (digits : String) :
    inputCount (.name ("input.makeinputs" ++ digits)) = (Numeral.word64? digits.toList).getD 0 := by
  have follows : Text.after? "input.makeinputs".toList ("input.makeinputs" ++ digits).toList =
      some digits.toList :=
    Text.after?_eq_some.mpr String.toList_append
  simp only [inputCount, follows, Option.bind_some]

theorem inputCount_eq_zero {text : String}
    (noInputs : ¬ "input.makeinputs".toList <+: text.toList) :
    inputCount (.name text) = 0 := by
  simp only [inputCount, Text.after?_eq_none.mpr noInputs, Option.bind_none, Option.getD_none]

theorem inputCount_family (kind : String) : inputCount (.name ("registered." ++ kind)) = 0 := by
  apply inputCount_eq_zero
  rw [String.toList_append]
  rintro ⟨rest, same⟩
  have first := congrArg List.head? same
  simp at first

theorem inputCount_plain {atom : Atom} {text : String} (named : Entry.text? atom = some text)
    (plain : Entry.IsPlain text) :
    inputCount atom = 0 := by
  cases atom with
  | name other =>
    obtain rfl := Option.some.inj named
    exact inputCount_eq_zero plain.noInputs
  | integer _ | float _ | boolean _ | program _ => rfl

theorem defineInputs_zero (set : InstructionSet ρ) : set.defineInputs 0 = set := rfl

/-- What a set makes of an entry. -/
def judge (set : InstructionSet ρ) (atom : Atom) :
    Except Error (List Generator × InstructionSet ρ) :=
  (Entry.ofAtom atom).bind set.expand

theorem judge_of_text (set : InstructionSet ρ) {atom : Atom} {text : String}
    (named : Entry.text? atom = some text) :
    set.judge atom = (Entry.ofText text).bind set.expand := by
  simp only [judge, Entry.ofAtom, Entry.textOf_of_text? named, Except.bind]

theorem judge_inputs (set : InstructionSet ρ) {digits : String} {count : Nat}
    (number : Numeral.word64? digits.toList = some count) :
    set.judge (.name ("input.makeinputs" ++ digits)) =
      .ok ((List.range count).map fun index => .instruction (inputName index),
        set.defineInputs count) := by
  rw [judge_of_text set rfl, Entry.ofText_inputs, number]
  rfl

theorem judge_of_refuses {set : InstructionSet ρ} {atom : Atom} {cause : Error}
    (refused : set.Refuses atom cause) :
    set.judge atom = .error cause := by
  cases refused with
  | unnamed unnamed => simp only [judge, Entry.ofAtom, Entry.textOf_of_unnamed unnamed, Except.bind]
  | badCount noNumber =>
    rw [judge_of_text set rfl, Entry.ofText_inputs, noNumber]
    rfl
  | unknown named plain absent =>
    rw [judge_of_text set named, Entry.ofText_plain plain]
    simp only [Except.bind, expand, absent]

/-- An entry is expanded and its inputs are defined, or it is refused. -/
theorem judge_cases (set : InstructionSet ρ) (atom : Atom) :
    (∃ generators, set.Expands atom generators ∧
      set.judge atom = .ok (generators, set.defineInputs (inputCount atom))) ∨
      ∃ cause, set.Refuses atom cause := by
  cases named : Entry.text? atom with
  | none => exact .inr ⟨_, .unnamed named⟩
  | some text =>
    have judged := judge_of_text set named
    rcases Entry.cases_text text with ⟨kind, rfl⟩ | ⟨digits, rfl⟩ | plain
    · obtain rfl : atom = .name ("registered." ++ kind) :=
        (Entry.eq_name_or_isPlain named).resolve_right fun plain =>
          plain.noFamily (Entry.prefix_lead _ _)
      refine .inl ⟨set.family kind, set.expands_family kind, ?_⟩
      rw [judged, Entry.ofText_family, inputCount_family]
      rfl
    · obtain rfl : atom = .name ("input.makeinputs" ++ digits) :=
        (Entry.eq_name_or_isPlain named).resolve_right fun plain =>
          plain.noInputs (Entry.prefix_lead _ _)
      cases number : Numeral.word64? digits.toList with
      | none => exact .inr ⟨_, .badCount number⟩
      | some count =>
        refine .inl ⟨_, .inputs number, ?_⟩
        rw [judged, Entry.ofText_inputs, inputCount_inputs, number]
        rfl
    · cases found : set.generator? text with
      | none => exact .inr ⟨_, .unknown named plain found⟩
      | some generator =>
        refine .inl ⟨_, .single named plain found, ?_⟩
        rw [judged, Entry.ofText_plain plain, inputCount_plain named plain]
        simp only [Except.bind, expand, found, defineInputs_zero]

theorem selectFrom_cons_ok {set next : InstructionSet ρ} {atom : Atom}
    {generators : List Generator} (judged : set.judge atom = .ok (generators, next))
    (selected : List Generator) (rest : Program) :
    set.selectFrom selected (atom :: rest) = next.selectFrom (selected ++ generators) rest := by
  rw [selectFrom, show (Entry.ofAtom atom).bind set.expand = _ from judged]

theorem selectFrom_cons_error {set : InstructionSet ρ} {atom : Atom} {cause : Error}
    (refused : set.Refuses atom cause) (selected : List Generator) (rest : Program) :
    set.selectFrom selected (atom :: rest) = (.error cause, set) := by
  rw [selectFrom, show (Entry.ofAtom atom).bind set.expand = _ from judge_of_refuses refused]

/-- From what is selected so far a list either goes on to its end or up to an entry that is
refused. -/
theorem selectFrom_cases (set : InstructionSet ρ) {front : Program} {selected : List Generator}
    (earlier : set.Selection front selected) (rest : Program) :
    (∃ generators, set.Selection (front ++ rest) generators ∧
      (set.extendedBy front).selectFrom selected rest =
      (.ok (), { set.extendedBy (front ++ rest) with eligible := generators })) ∨
    ∃ before atom back cause, rest = before ++ atom :: back ∧
      (∃ generators, set.Selection (front ++ before) generators) ∧
      (set.extendedBy (front ++ before)).Refuses atom cause ∧
      (set.extendedBy front).selectFrom selected rest =
        (.error cause, set.extendedBy (front ++ before)) := by
  induction rest generalizing front selected with
  | nil => exact .inl ⟨selected, by rwa [List.append_nil], by rw [List.append_nil]; rfl⟩
  | cons atom rest ih =>
    rcases (set.extendedBy front).judge_cases atom with ⟨generators, expanded, judged⟩
      | ⟨cause, refused⟩
    · have next : (set.extendedBy front).defineInputs (inputCount atom) =
          set.extendedBy (front ++ [atom]) := by
        rw [extendedBy_append]
        rfl
      rw [selectFrom_cons_ok judged, next]
      rcases ih (earlier.snoc expanded) with
        ⟨all, selection, ended⟩ | ⟨before, other, back, cause, rfl, accepted, refused, ended⟩
      · rw [List.append_assoc, List.singleton_append] at selection ended
        exact .inl ⟨all, selection, ended⟩
      · rw [List.append_assoc, List.singleton_append] at accepted refused ended
        exact .inr ⟨atom :: before, other, back, cause, rfl, accepted, refused, ended⟩
    · refine .inr ⟨[], atom, rest, cause, rfl,
        ⟨selected, by rwa [List.append_nil]⟩, by rwa [List.append_nil], ?_⟩
      rw [selectFrom_cons_error refused, List.append_nil]

/-- A list with an entry that is refused at its turn fails, there or before. -/
theorem exists_error_of_refuses {set : InstructionSet ρ} {front : Program} {atom : Atom}
    {cause : Error} (refused : (set.extendedBy front).Refuses atom cause)
    (selected : List Generator) (back : Program) :
    ∃ first, (set.selectFrom selected (front ++ atom :: back)).1 = .error first := by
  induction front generalizing set selected with
  | nil =>
    have first : set.Refuses atom cause := refused
    exact ⟨cause, by rw [List.nil_append, selectFrom_cons_error first]⟩
  | cons other front ih =>
    rw [List.cons_append]
    rcases set.judge_cases other with ⟨generators, -, judged⟩ | ⟨first, stopped⟩
    · rw [selectFrom_cons_ok judged]
      exact ih refused (selected ++ generators)
    · exact ⟨first, by rw [selectFrom_cons_error stopped]⟩

theorem inputName_injective {index other : Nat} (same : inputName index = inputName other) :
    index = other := by
  have digits : Numeral.ofNat index = Numeral.ofNat other :=
    List.append_cancel_left
      ((toList_inputName index).symm.trans
        ((congrArg String.toList same).trans (toList_inputName other)))
  rw [← Numeral.ofDigitChars_ofNat index, digits, Numeral.ofDigitChars_ofNat]

theorem defineInputs_succ (set : InstructionSet ρ) (count : Nat) :
    set.defineInputs (count + 1) =
      (set.defineInputs count).define (inputName count) (.inputAt count) := by
  simp only [defineInputs, List.range_succ, List.foldl_append, List.foldl_cons, List.foldl_nil]

theorem eligible_defineInputs (set : InstructionSet ρ) (count : Nat) :
    (set.defineInputs count).eligible = set.eligible := by
  induction count with
  | zero => rfl
  | succ count ih => rw [defineInputs_succ, ← ih]; rfl

/-- A set knows an input under its name, as an instruction and as what random code can draw. -/
def HasInput (set : InstructionSet ρ) (index : Nat) : Prop :=
  set.get? (inputName index) = some (.inputAt index) ∧
    set.generator? (inputName index) = some (.instruction (inputName index))

/-- Two sets have the same instruction and the same generator under a name. -/
def AgreeOn (set other : InstructionSet ρ) (name : String) : Prop :=
  set.get? name = other.get? name ∧ set.generator? name = other.generator? name

theorem agreeOn_define (set : InstructionSet ρ) {name other : String} (apart : other ≠ name)
    (instruction : Instruction ρ) :
    (set.define name instruction).AgreeOn set other := by
  constructor
  · rw [get?_define, if_neg (Ne.symm apart)]
  · rw [generator?_define, if_neg (Ne.symm apart)]

theorem hasInput_define (set : InstructionSet ρ) (index : Nat) :
    (set.define (inputName index) (.inputAt index)).HasInput index := by
  constructor
  · rw [get?_define, if_pos rfl]
  · rw [generator?_define, if_pos rfl]

theorem hasInput_defineInputs (set : InstructionSet ρ) {index count : Nat}
    (within : index < count) :
    (set.defineInputs count).HasInput index := by
  induction count with
  | zero => cases within
  | succ count ih =>
    rw [defineInputs_succ]
    by_cases last : index = count
    · subst last
      exact hasInput_define _ index
    · have kept := agreeOn_define (set.defineInputs count)
        (fun same => last (inputName_injective same)) (.inputAt count)
      have known := ih (by omega)
      exact ⟨kept.1.trans known.1, kept.2.trans known.2⟩

theorem agreeOn_defineInputs (set : InstructionSet ρ) {count : Nat} {name : String}
    (apart : ∀ index < count, name ≠ inputName index) :
    (set.defineInputs count).AgreeOn set name := by
  induction count with
  | zero => exact ⟨rfl, rfl⟩
  | succ count ih =>
    rw [defineInputs_succ]
    have kept := agreeOn_define (set.defineInputs count) (apart count (Nat.lt_succ_self count))
      (.inputAt count)
    have earlier := ih fun index within => apart index (Nat.lt_succ_of_lt within)
    exact ⟨kept.1.trans earlier.1, kept.2.trans earlier.2⟩

/-- Inputs stay known when inputs are defined, since each of them only ever gets the one name. -/
theorem HasInput.defineInputs {set : InstructionSet ρ} {index : Nat} (known : set.HasInput index)
    (count : Nat) :
    (set.defineInputs count).HasInput index := by
  by_cases again : index < count
  · exact hasInput_defineInputs set again
  · obtain ⟨instruction, generator⟩ := set.agreeOn_defineInputs (fun other within same =>
      again (inputName_injective same ▸ within) :
        ∀ other < count, inputName index ≠ inputName other)
    exact ⟨instruction.trans known.1, generator.trans known.2⟩

theorem HasInput.extendedBy {set : InstructionSet ρ} {index : Nat} (known : set.HasInput index)
    (front : Program) :
    (set.extendedBy front).HasInput index := by
  induction front generalizing set with
  | nil => exact known
  | cons atom front ih => exact ih (known.defineInputs (inputCount atom))

/-- A set is another one with the inputs that some entries ask for, and otherwise the same. -/
structure Extends (after set : InstructionSet ρ) (front : Program) : Prop where
  eligible : after.eligible = set.eligible
  inputs : ∀ atom ∈ front, ∀ index < inputCount atom, after.HasInput index
  others : ∀ name, (∀ atom ∈ front, ∀ index < inputCount atom, name ≠ inputName index) →
    after.AgreeOn set name

theorem extends_extendedBy (set : InstructionSet ρ) (front : Program) :
    (set.extendedBy front).Extends set front := by
  induction front generalizing set with
  | nil => exact ⟨rfl, by simp, fun name _ => ⟨rfl, rfl⟩⟩
  | cons atom front ih =>
    have later := ih (set.defineInputs (inputCount atom))
    refine ⟨later.eligible.trans (set.eligible_defineInputs _), ?_, fun name apart => ?_⟩
    · refine List.forall_mem_cons.mpr ⟨fun index within => ?_, later.inputs⟩
      exact (set.hasInput_defineInputs within).extendedBy front
    · obtain ⟨first, others⟩ := List.forall_mem_cons.mp apart
      have kept := later.others name others
      have start := set.agreeOn_defineInputs first
      exact ⟨kept.1.trans start.1, kept.2.trans start.2⟩

/-- Selecting by a list is exact. It fails just if some entry is refused by the set that the inputs
asked for before extend. At the first such entry it leaves that set, with the eligible generators as
they were. Otherwise the generators that the entries stand for become the eligible ones, and the set
has all the inputs asked for besides. -/
theorem configure_exact (set : InstructionSet ρ) (list : Program) :
    (∀ front, (set.extendedBy front).Extends set front) ∧
    ((∃ cause, (set.configure list).1 = .error cause) ↔
      ∃ front atom back cause, list = front ++ atom :: back ∧
        (set.extendedBy front).Refuses atom cause) ∧
    match set.configure list with
    | (.ok (), after) => set.Selection list after.eligible ∧
      after = { set.extendedBy list with eligible := after.eligible }
    | (.error cause, after) => ∃ front atom back, list = front ++ atom :: back ∧
      (∃ generators, set.Selection front generators) ∧ after = set.extendedBy front ∧
        after.Refuses atom cause := by
  refine ⟨set.extends_extendedBy, ⟨?_, ?_⟩, ?_⟩
  · rintro ⟨first, failed⟩
    rcases set.selectFrom_cases .nil list with ⟨generators, -, ended⟩
      | ⟨front, atom, back, cause, split, -, refused, -⟩
    · rw [configure, show set.selectFrom [] list = _ from ended] at failed
      cases failed
    · exact ⟨front, atom, back, cause, split, refused⟩
  · rintro ⟨front, atom, back, cause, rfl, refused⟩
    exact exists_error_of_refuses refused [] back
  · unfold configure
    rcases set.selectFrom_cases .nil list with
      ⟨generators, selection, ended⟩ | ⟨front, atom, back, cause, split, accepted, refused, ended⟩
    · rw [show set.selectFrom [] list = _ from ended]
      exact ⟨selection, rfl⟩
    · rw [show set.selectFrom [] list = _ from ended]
      exact ⟨front, atom, back, split, accepted, rfl, refused⟩

/-- A list that names an input which no earlier entry asks for, and a list that selects its inputs
twice and then everything that is boolean. -/
theorem configure_exact_inputs :
    let set : InstructionSet Script := InstructionSet.literals.add "boolean.x" (.inputAt 7)
    let failing : Program := [.name "input.makeinputs1", .boolean true, .name "input.in1"]
    let passing : Program :=
      [.name "input.makeinputs2", .name "registered.input", .name "registered.boolean"]
    let inputs : List Generator := [.instruction "input.in0", .instruction "input.in1"]
    let truths : List Generator := [.literal (.boolean true), .literal (.boolean false)]
    (∃ cause, (set.configure failing).1 = .error cause) ∧
      set.Selection passing (inputs ++ inputs ++ (.instruction "boolean.x" :: truths)) := by
  intro set failing passing inputs truths
  obtain ⟨-, fails, -⟩ := set.configure_exact failing
  obtain ⟨-, -, outcome⟩ := set.configure_exact passing
  constructor
  · have absent : (set.extendedBy [.name "input.makeinputs1", .boolean true]).generator?
        "input.in1" = none := by
      rfl
    exact fails.mpr ⟨[.name "input.makeinputs1", .boolean true], .name "input.in1", [], _, rfl,
      .unknown rfl ⟨by decide, by decide⟩ absent⟩
  · have passes : set.configure passing = (.ok (), (set.configure passing).2) := by
      rfl
    have eligible : (set.configure passing).2.eligible =
        inputs ++ inputs ++ (.instruction "boolean.x" :: truths) := by
      rfl
    rw [passes] at outcome
    rw [← eligible]
    exact outcome.1

end InstructionSet

end PushLang
