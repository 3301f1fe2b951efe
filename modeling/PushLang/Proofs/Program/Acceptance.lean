import PushLang.Proofs.Program.Grammar
import PushLang.Proofs.Program.Token

/-! What reading accepts and what it refuses. A text has one sequence of tokens, and whether it is a
program is a matter of counting their parentheses: the balanced sequences are the ones that stand
for atoms, and of all others the count tells how they are refused. -/

namespace PushLang.Program

/-- The tokens that a text splits into: single parentheses, and words that something else ends.
Blanks are left out. -/
inductive Splits : List Char → List Token → Prop where
  | nil : Splits [] []
  | blank {c : Char} {text : List Char} {tokens : List Token} (blank : Text.isBlank c = true)
      (rest : Splits text tokens) : Splits (c :: text) tokens
  | opening {text : List Char} {tokens : List Token} (rest : Splits text tokens) :
      Splits ('(' :: text) (.opening :: tokens)
  | closing {text : List Char} {tokens : List Token} (rest : Splits text tokens) :
      Splits (')' :: text) (.closing :: tokens)
  | word {word text : List Char} {tokens : List Token} (isWord : Text.IsWord word)
      (ended : EndsWord text)
      (rest : Splits text tokens) : Splits (word ++ text) (.word word :: tokens)

theorem Splits.eq_tokens {text : List Char} {tokens : List Token} (splits : Splits text tokens) :
    tokens = Program.tokens text := by
  unfold Program.tokens
  induction splits with
  | nil => rfl
  | blank blank _ ih => rw [tokensFrom_blank blank, closeToken_nil, ih]
  | opening _ ih => rw [tokensFrom_opening, closeToken_nil, ih]
  | closing _ ih => rw [tokensFrom_closing, closeToken_nil, ih]
  | word isWord ended _ ih => rw [tokensFrom_word isWord ended, ih]

/-- An unfinished word in front of what ends it. -/
private theorem Splits.close {pending text : List Char} {tokens : List Token}
    (letters : ∀ c ∈ pending, Text.IsLetter c) (ended : EndsWord text) (rest : Splits text tokens) :
    Splits (pending.reverse ++ text) (closeToken pending tokens) := by
  cases pending with
  | nil => exact rest
  | cons c pending =>
    exact .word ⟨by simp,
      fun letter member => letters letter (List.mem_reverse.mp member)⟩ ended rest

private theorem splits_tokensFrom (pending : List Char) (letters : ∀ c ∈ pending, Text.IsLetter c)
    (text : List Char) :
    Splits (pending.reverse ++ text) (tokensFrom pending text) := by
  have none : ∀ c ∈ ([] : List Char), Text.IsLetter c := by simp
  induction text generalizing pending with
  | nil => exact .close letters (by simp [EndsWord]) .nil
  | cons c text ih =>
    rcases cases_letter c with blank | rfl | rfl | letter
    · rw [tokensFrom_blank blank]
      exact .close letters (by simp [EndsWord, Text.IsLetter, blank]) (.blank blank (ih [] none))
    · rw [tokensFrom_opening]
      exact .close letters (by simp [EndsWord, Text.IsLetter]) (.opening (ih [] none))
    · rw [tokensFrom_closing]
      exact .close letters (by simp [EndsWord, Text.IsLetter]) (.closing (ih [] none))
    · rw [tokensFrom_letter letter]
      simpa using ih (c :: pending) (List.forall_mem_cons.mpr ⟨letter, letters⟩)

/-- A text splits in just one way, and the tokenizer finds it. -/
theorem splits_iff {text : List Char} {tokens : List Token} :
    Splits text tokens ↔ tokens = Program.tokens text := by
  constructor
  · exact Splits.eq_tokens
  · rintro rfl
    exact splits_tokensFrom [] (by simp) text

theorem Reads.unique {tokens : List Token} {atoms others : List Atom} (reads : Reads tokens atoms)
    (again : Reads tokens others) : others = atoms := by
  have same := (readFrom_eq_ok_iff.mpr again).symm.trans (readFrom_eq_ok_iff.mpr reads)
  exact Except.ok.inj same

/-- With some groups open before the tokens, no front of them closes more groups than are open by
then. -/
def StaysWithin (depth : Nat) (tokens : List Token) : Prop :=
  ∀ front, front <+: tokens → front.count .closing ≤ depth + front.count .opening

/-- No closing parenthesis comes before the opening one that it belongs to, and every group is
closed. -/
structure IsBalanced (tokens : List Token) : Prop where
  within : StaysWithin 0 tokens
  closed : tokens.count .opening = tokens.count .closing

section

variable {depth : Nat} {token : Token} {tokens : List Token}

/-- The fronts to look at are the empty one, which closes nothing, and those that start with the
first token. -/
theorem staysWithin_cons : StaysWithin depth (token :: tokens) ↔
    ∀ front, front <+: tokens →
      (token :: front).count .closing ≤ depth + (token :: front).count .opening := by
  constructor
  · intro within front begins
    exact within (token :: front) (List.cons_prefix_cons.mpr ⟨rfl, begins⟩)
  · intro within front begins
    cases front with
    | nil => simp
    | cons first front =>
      obtain ⟨rfl, later⟩ := List.cons_prefix_cons.mp begins
      exact within front later

@[simp] theorem staysWithin_nil : StaysWithin depth [] := by
  intro front begins
  simp [List.prefix_nil.mp begins]

@[simp] theorem staysWithin_word {text : List Char} :
    StaysWithin depth (.word text :: tokens) ↔ StaysWithin depth tokens := by
  rw [staysWithin_cons]
  simp [StaysWithin]

@[simp] theorem staysWithin_opening :
    StaysWithin depth (.opening :: tokens) ↔ StaysWithin (depth + 1) tokens := by
  rw [staysWithin_cons]
  simp [StaysWithin, Nat.add_assoc, Nat.add_comm 1]

@[simp] theorem staysWithin_closing :
    StaysWithin (depth + 1) (.closing :: tokens) ↔ StaysWithin depth tokens := by
  rw [staysWithin_cons]
  simp [StaysWithin, Nat.add_right_comm depth 1]

@[simp] theorem not_staysWithin_closing : ¬ StaysWithin 0 (.closing :: tokens) := by
  intro within
  have counted := within [.closing] (by simp)
  simp at counted

end

/-- Reading stops at a parenthesis that closes nothing. -/
theorem readFrom_of_not_staysWithin (outer : List (List Atom)) (current : List Atom)
    {tokens : List Token} (exceeds : ¬ StaysWithin outer.length tokens) :
    readFrom outer current tokens = .error (.parse "unexpected ')'") := by
  induction tokens generalizing outer current with
  | nil => exact absurd staysWithin_nil exceeds
  | cons token tokens ih =>
    cases token with
    | word text => exact ih outer _ (fun within => exceeds (staysWithin_word.mpr within))
    | opening =>
      exact ih (current :: outer) [] (fun within => exceeds (staysWithin_opening.mpr within))
    | closing =>
      cases outer with
      | nil => rfl
      | cons before others =>
        exact ih others _ (fun within => exceeds (staysWithin_closing.mpr within))

/-- Where no parenthesis closes nothing, all tokens are read, and as many groups are left open as
the counts say. -/
theorem readFrom_of_staysWithin (outer : List (List Atom)) (current : List Atom)
    {tokens : List Token} {left : Nat} (within : StaysWithin outer.length tokens)
    (counted : outer.length + tokens.count .opening = tokens.count .closing + left) :
    ∃ (groups : List (List Atom)) (last : List Atom), groups.length = left ∧
      readFrom outer current tokens = readFrom groups last [] := by
  induction tokens generalizing outer current with
  | nil => exact ⟨outer, current, by simpa using counted, rfl⟩
  | cons token tokens ih =>
    cases token with
    | word text => exact ih outer _ (staysWithin_word.mp within) (by simpa using counted)
    | opening =>
      refine ih (current :: outer) [] (staysWithin_opening.mp within) ?_
      simp only [List.count_cons_self,
        List.count_cons_of_ne (show Token.opening ≠ .closing by decide)] at counted
      simp only [List.length_cons]
      omega
    | closing =>
      cases outer with
      | nil => exact absurd within not_staysWithin_closing
      | cons before others =>
        refine ih others _ (staysWithin_closing.mp within) ?_
        simp only [List.count_cons_self,
          List.count_cons_of_ne (show Token.closing ≠ .opening by decide), List.length_cons]
          at counted
        omega

theorem readFrom_of_unclosed {tokens : List Token} (within : StaysWithin 0 tokens) {left : Nat}
    (positive : 0 < left) (counted : tokens.count .opening = tokens.count .closing + left) :
    readFrom [] [] tokens = .error (.parse (toString left ++ " unclosed '('")) := by
  obtain ⟨groups, last, rfl, read⟩ := readFrom_of_staysWithin [] [] within (by simpa using counted)
  have open? : groups.isEmpty = false := by simpa using List.length_pos_iff.mp positive
  rw [read]
  simp [readFrom, open?]

theorem exists_reads_of_isBalanced {tokens : List Token} (balanced : IsBalanced tokens) :
    ∃ atoms, Reads tokens atoms := by
  have counted : 0 + tokens.count .opening = tokens.count .closing + 0 := by
    simpa using balanced.closed
  obtain ⟨groups, last, none, read⟩ := readFrom_of_staysWithin [] [] balanced.within counted
  obtain rfl := List.length_eq_zero_iff.mp none
  exact ⟨last.reverse, readFrom_eq_ok_iff.mp read⟩

theorem isBalanced_of_reads {tokens : List Token} {atoms : List Atom} (reads : Reads tokens atoms) :
    IsBalanced tokens := by
  have success := readFrom_eq_ok_iff.mpr reads
  have within : StaysWithin 0 tokens := by
    refine Classical.byContradiction fun exceeds => ?_
    rw [readFrom_of_not_staysWithin [] [] exceeds] at success
    cases success
  obtain ⟨left, counted⟩ := Nat.exists_eq_add_of_le (within tokens (List.prefix_refl tokens))
  rw [Nat.zero_add] at counted
  rcases Nat.eq_zero_or_pos left with rfl | positive
  · exact ⟨within, counted⟩
  · rw [readFrom_of_unclosed within positive counted] at success
    cases success

theorem unwrap_cases (atoms : List Atom) :
    (∃ body, atoms = [.program body] ∧ unwrap atoms = body) ∨
      (∀ body, atoms ≠ [.program body]) ∧ unwrap atoms = atoms := by
  unfold unwrap
  split
  · exact .inl ⟨_, rfl, rfl⟩
  · rename_i several
    exact .inr ⟨several, rfl⟩

theorem parse_eq (source : String) :
    parse source = (readFrom [] [] (tokens source.toList)).map unwrap := rfl

/-- A text splits into tokens in one way, and is read if they are balanced. They then stand for just
one sequence of atoms; a single group is the program itself, and any other sequence the program of
its atoms. Where a front of the tokens closes more groups than it opens the error says so, and else
it counts the groups left open. -/
theorem parse_grammar (source : String) :
    ∃ tokens, (∀ other, Splits source.toList other ↔ other = tokens) ∧
      ((∃ program, parse source = .ok program) ↔ IsBalanced tokens) ∧
      (IsBalanced tokens → ∃ atoms program, (∀ other, Reads tokens other ↔ other = atoms) ∧
        parse source = .ok program ∧
        ((∃ body, atoms = [.program body] ∧ program = body) ∨ (∀ body, atoms ≠ [.program body]) ∧
          program = atoms)) ∧
      ((∃ front, front <+: tokens ∧ front.count .opening < front.count .closing) →
        parse source = .error (.parse "unexpected ')'")) ∧
      ∀ left, (∀ front, front <+: tokens → front.count .closing ≤ front.count .opening) → 0 < left →
        tokens.count .opening = tokens.count .closing + left →
        parse source = .error (.parse (toString left ++ " unclosed '('")) := by
  refine ⟨tokens source.toList, fun _ => splits_iff, ⟨?_, ?_⟩, ?_, ?_, ?_⟩
  · rintro ⟨program, success⟩
    rw [parse_eq] at success
    cases read : readFrom [] [] (tokens source.toList) with
    | error cause => simp [read, Except.map] at success
    | ok atoms => exact isBalanced_of_reads (readFrom_eq_ok_iff.mp read)
  · intro balanced
    obtain ⟨atoms, reads⟩ := exists_reads_of_isBalanced balanced
    rw [parse_eq, readFrom_eq_ok_iff.mpr reads]
    exact ⟨unwrap atoms, rfl⟩
  · intro balanced
    obtain ⟨atoms, reads⟩ := exists_reads_of_isBalanced balanced
    refine ⟨atoms, unwrap atoms, fun other => ⟨reads.unique, ?_⟩, ?_, unwrap_cases atoms⟩
    · rintro rfl
      exact reads
    · rw [parse_eq, readFrom_eq_ok_iff.mpr reads]
      rfl
  · rintro ⟨front, begins, more⟩
    have exceeds : ¬ StaysWithin 0 (tokens source.toList) := by
      intro within
      have least := within front begins
      omega
    rw [parse_eq, readFrom_of_not_staysWithin [] [] exceeds]
    rfl
  · intro left within positive counted
    have stays : StaysWithin 0 (tokens source.toList) := by simpa [StaysWithin] using within
    rw [parse_eq, readFrom_of_unclosed stays positive counted]
    rfl

/-- A single group next to a blank of three bytes, one group too few, and a parenthesis that closes
nothing before groups that stay open. -/
theorem parse_grammar_errors :
    parse "\u3000((é)x)" = .ok [.program [.name "é"], .name "x"] ∧
      parse "(()((1" = .error (.parse "3 unclosed '('") ∧
      parse "(1))((" = .error (.parse "unexpected ')'") := by
  refine ⟨?_, ?_, ?_⟩
  · obtain ⟨tokens, splits, -, accepted, -⟩ := parse_grammar "\u3000((é)x)"
    obtain rfl : [.opening, .opening, .word ['é'], .closing, .word ['x'], .closing] = tokens :=
      (splits _).mp (splits_iff.mpr (by decide +kernel))
    obtain ⟨atoms, program, stands, success, shape⟩ := accepted ⟨by simp, by decide⟩
    obtain rfl : [.program [.program [.name "é"], .name "x"]] = atoms :=
      (stands _).mp (readFrom_eq_ok_iff.mp rfl)
    rcases shape with ⟨body, same, rfl⟩ | ⟨several, -⟩
    · cases same
      exact success
    · exact absurd rfl (several _)
  · obtain ⟨tokens, splits, -, -, -, unclosed⟩ := parse_grammar "(()((1"
    obtain rfl : [.opening, .opening, .closing, .opening, .opening, .word ['1']] = tokens :=
      (splits _).mp (splits_iff.mpr (by decide +kernel))
    have within : StaysWithin 0 [.opening, .opening, .closing, .opening, .opening,
      .word ['1']] := by simp
    exact unclosed 3 (by simpa [StaysWithin] using within) (by decide) (by decide)
  · obtain ⟨tokens, splits, -, -, exceeding, -⟩ := parse_grammar "(1))(("
    obtain rfl : [.opening, .word ['1'], .closing, .closing, .opening, .opening] = tokens :=
      (splits _).mp (splits_iff.mpr (by decide +kernel))
    exact exceeding ⟨[.opening, .word ['1'], .closing, .closing], by simp, by decide⟩

end PushLang.Program
