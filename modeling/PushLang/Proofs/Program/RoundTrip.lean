import PushLang.Program.Printer
import PushLang.Proofs.Numeral.Real
import PushLang.Proofs.Program.Grammar
import PushLang.Proofs.Program.Preorder
import PushLang.Proofs.Program.Token

/-! Printed programs read back. A program is legible if each of its leaves is, and the legible
programs are those that reading gives back from their printed form, which are all that it ever
gives. -/

namespace PushLang

/-- The leaves whose printed form stands for them: any integer and truth value, finite floats, and
names that are words standing for names. -/
def Atom.IsLegible : Atom → Prop
  | .float value => value.isFinite = true
  | .name text => Text.IsWord text.toList ∧ Atom.ofWord text.toList = .name text
  | _ => True

/-- The programs with legible leaves only. -/
def Program.IsLegible (program : Program) : Prop := ∀ leaf ∈ program.leaves, leaf.IsLegible

namespace Atom

private theorem isLetter_of_numeral {c : Char}
    (member : c.isDigit = true ∨ c = '.' ∨ c = 'e' ∨ c = '-') :
    Text.IsLetter c := by
  rcases member with digit | rfl | rfl | rfl
  · exact Text.isLetter_of_isDigit digit
  · exact ⟨rfl, by decide, by decide⟩
  · exact ⟨rfl, by decide, by decide⟩
  · exact ⟨rfl, by decide, by decide⟩

theorem isWord_chars {leaf : Atom} (isLeaf : leaf.isProgram = false) (legible : leaf.IsLegible) :
    Text.IsWord leaf.chars := by
  cases leaf with
  | integer value =>
    simp only [chars]
    refine ⟨?_, fun c member => ?_⟩
    · cases value.toInt <;> simp [Numeral.ofInt, Numeral.ofNat_ne_nil]
    · rcases Numeral.mem_ofInt member with digit | sign
      · exact isLetter_of_numeral (.inl digit)
      · exact isLetter_of_numeral (.inr (.inr (.inr sign)))
  | float value =>
    simp only [chars]
    refine ⟨?_, fun c member => isLetter_of_numeral (Numeral.mem_ofBinary32 legible member)⟩
    intro empty
    have reads := Numeral.real?_ofBinary32 Numeral.literal value legible
    rw [empty] at reads
    cases reads
  | boolean value =>
    cases value <;> exact ⟨by simp [chars], by simp [chars, Text.IsLetter, Text.isBlank]⟩
  | name text => simpa only [chars] using legible.1
  | program body => cases isLeaf

theorem ofWord_chars {leaf : Atom} (isLeaf : leaf.isProgram = false) (legible : leaf.IsLegible) :
    ofWord leaf.chars = leaf := by
  cases leaf with
  | integer value => simp [chars, ofWord, Numeral.int32?_ofInt]
  | float value =>
    have finite : value.isFinite = true := legible
    have kept : (some value).filter Binary32.isFinite = some value := by
      simp [Option.filter, finite]
    simp [chars, ofWord, Numeral.int32?_literal finite, Numeral.real?_ofBinary32 _ value finite,
      kept]
  | boolean value => cases value <;> rfl
  | name text => simpa only [chars] using legible.2
  | program body => cases isLeaf

theorem isLegible_ofWord {word : List Char} (isWord : Text.IsWord word) :
    (ofWord word).isProgram = false ∧ (ofWord word).IsLegible := by
  cases same : ofWord word with
  | integer value => exact ⟨rfl, trivial⟩
  | float value =>
    refine ⟨rfl, ?_⟩
    unfold ofWord at same
    split at same
    · cases same
    · split at same
      · rename_i found
        cases same
        exact (Option.filter_eq_some_iff.mp found).2
      · split at same
        · cases same
        · split at same <;> cases same
  | boolean value => exact ⟨rfl, trivial⟩
  | name text =>
    have spelled : text = String.ofList word := by
      unfold ofWord at same
      grind
    refine ⟨rfl, ?_, ?_⟩
    · simpa [spelled] using isWord
    · simpa [spelled] using same
  | program body =>
    unfold ofWord at same
    grind

end Atom

namespace Program

/-- The tokens of the printed forms of some atoms. -/
def printedTokens : List Atom → List Token
  | [] => []
  | .program body :: rest => .opening :: (printedTokens body ++ .closing :: printedTokens rest)
  | leaf :: rest => .word leaf.chars :: printedTokens rest

theorem printedTokens_leaf {leaf : Atom} (isLeaf : leaf.isProgram = false) (rest : List Atom) :
    printedTokens (leaf :: rest) = .word leaf.chars :: printedTokens rest := by
  cases leaf with
  | program body => cases isLeaf
  | integer _ | float _ | boolean _ | name _ => simp [printedTokens]

/-- A space in front of the printed forms, except before the end. -/
private theorem charsOfList_cons (atom : Atom) (rest : List Atom) :
    ∃ gap, charsOfList (atom :: rest) = atom.chars ++ (gap ++ charsOfList rest) ∧
      (gap = [] ∧ rest = [] ∨ gap = [' ']) := by
  cases rest with
  | nil => exact ⟨[], by simp [charsOfList], .inl ⟨rfl, rfl⟩⟩
  | cons next rest => exact ⟨[' '], by simp [charsOfList], .inr rfl⟩

private theorem tokensFrom_space (rest : List Char) :
    tokensFrom [] (' ' :: rest) = tokensFrom [] rest :=
  tokensFrom_blank rfl [] rest

private theorem endsWord_space (rest : List Char) : EndsWord (' ' :: rest) := by
  intro c first letter
  cases first
  exact absurd letter.1 (by decide)

private theorem endsWord_closing (rest : List Char) : EndsWord (')' :: rest) := by
  intro c first letter
  cases first
  exact letter.2.2 rfl

/-- The tokens of what is printed are the printed tokens, up to what follows. -/
theorem tokensFrom_charsOfList {atoms : List Atom} (legible : IsLegible atoms) {rest : List Char}
    (ended : EndsWord rest) :
    tokensFrom [] (charsOfList atoms ++ rest) = printedTokens atoms ++ tokensFrom [] rest := by
  induction atoms using Program.induction generalizing rest with
  | nil => simp [charsOfList, printedTokens]
  | leaf atom others isLeaf ih =>
    obtain ⟨first, later⟩ := (forall_leaves_leaf isLeaf others).mp legible
    have isWord := atom.isWord_chars isLeaf first
    obtain ⟨gap, shape, ⟨rfl, rfl⟩ | rfl⟩ := charsOfList_cons atom others
    · simp only [charsOfList, printedTokens_leaf isLeaf, printedTokens,
        tokensFrom_word isWord ended, List.cons_append, List.nil_append]
    · simp only [shape, List.append_assoc, List.cons_append, List.nil_append,
        printedTokens_leaf isLeaf, tokensFrom_word isWord (endsWord_space _), tokensFrom_space,
        ih later ended]
  | nested body others bodyIh ih =>
    obtain ⟨inner, later⟩ := (forall_leaves_nested body others).mp legible
    obtain ⟨gap, shape, space⟩ := charsOfList_cons (.program body) others
    have gapless : tokensFrom [] (gap ++ (charsOfList others ++ rest)) =
        printedTokens others ++ tokensFrom [] rest := by
      rcases space with ⟨rfl, rfl⟩ | rfl
      · exact ih later ended
      · rw [List.cons_append, List.nil_append, tokensFrom_space, ih later ended]
    simp only [shape, Atom.chars, List.append_assoc, List.cons_append, List.nil_append,
      tokensFrom_opening, closeToken_nil, bodyIh inner (endsWord_closing _), tokensFrom_closing,
      gapless, printedTokens]

/-- The printed tokens of legible atoms stand for those atoms. -/
theorem reads_printedTokens {atoms : List Atom} (legible : IsLegible atoms) :
    Reads (printedTokens atoms) atoms := by
  induction atoms using Program.induction with
  | nil => simpa only [printedTokens] using Reads.nil
  | leaf atom others isLeaf ih =>
    obtain ⟨first, later⟩ := (forall_leaves_leaf isLeaf others).mp legible
    have word : Reads (.word atom.chars :: printedTokens others)
        (Atom.ofWord atom.chars :: others) :=
      .word (ih later)
    rwa [atom.ofWord_chars isLeaf first, ← printedTokens_leaf isLeaf] at word
  | nested body others bodyIh ih =>
    obtain ⟨inner, later⟩ := (forall_leaves_nested body others).mp legible
    simpa only [printedTokens] using Reads.group (bodyIh inner) (ih later)

theorem parse_text {program : Program} (legible : program.IsLegible) :
    parse program.text = .ok program := by
  have alone : IsLegible [.program program] :=
    (forall_leaves_nested program []).mpr ⟨legible, by simp⟩
  have printed : program.chars = charsOfList [.program program] := by simp [chars, charsOfList]
  have ended : EndsWord [] := by simp [EndsWord]
  have spelled : tokens program.chars = printedTokens [.program program] := by
    simpa [tokens, printed, tokensFrom] using tokensFrom_charsOfList alone ended
  have read := readFrom_eq_ok_iff.mpr (reads_printedTokens alone)
  simp only [parse, text, String.toList_ofList, ofChars, spelled, read]
  rfl

theorem Reads.isLegible {tokens : List Token} {atoms : List Atom} (reads : Reads tokens atoms)
    (words : ∀ text, Token.word text ∈ tokens → Text.IsWord text) : IsLegible atoms := by
  induction reads with
  | nil => simp [IsLegible]
  | @word text tokens atoms rest ih =>
    obtain ⟨isLeaf, first⟩ := Atom.isLegible_ofWord (words text (by simp))
    have later := ih fun other member => words other (by simp [member])
    exact (forall_leaves_leaf isLeaf atoms).mpr ⟨first, later⟩
  | group inner rest innerIh restIh =>
    have inside := innerIh fun other member => words other (by simp [member])
    have later := restIh fun other member => words other (by simp [member])
    exact (forall_leaves_nested _ _).mpr ⟨inside, later⟩

theorem isLegible_unwrap {atoms : List Atom} (legible : IsLegible atoms) :
    IsLegible (unwrap atoms) := by
  unfold unwrap
  split
  · exact ((forall_leaves_nested _ []).mp legible).1
  · exact legible

theorem isLegible_of_parse {source : String} {program : Program}
    (success : parse source = .ok program) :
    program.IsLegible := by
  obtain ⟨atoms, reads, rfl⟩ := ofChars_eq_ok_iff.mp success
  exact isLegible_unwrap (reads.isLegible fun _ => isWord_of_mem_tokens)

/-- The programs that read back from their printed form are the legible ones, and these are all that
any text can be read as: printing a program that was read and reading it again always gives it
back. -/
theorem parse_text_iff :
    (∀ program : Program, parse program.text = .ok program ↔ program.IsLegible) ∧
      ∀ (source : String) (program : Program), parse source = .ok program →
        program.IsLegible ∧ parse program.text = .ok program :=
  ⟨fun _ => ⟨isLegible_of_parse, parse_text⟩,
    fun _ _ success => ⟨isLegible_of_parse success, parse_text (isLegible_of_parse success)⟩⟩

/-- A literal with a needless sign, a float in a short form and a name that looks like a number,
nested. -/
theorem parse_text_iff_nested :
    parse "+1 (.5 (inf))" = .ok [.integer 1, .program [.float 0.5, .program [.name "inf"]]] ∧
      parse (text [.integer 1, .program [.float 0.5, .program [.name "inf"]]]) =
        .ok [.integer 1, .program [.float 0.5, .program [.name "inf"]]] :=
  have read : parse "+1 (.5 (inf))" =
    .ok [.integer 1, .program [.float 0.5, .program [.name "inf"]]] := by decide +kernel
  ⟨read, (parse_text_iff.2 _ _ read).2⟩

end Program

end PushLang
