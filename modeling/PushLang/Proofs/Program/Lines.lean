import PushLang.Proofs.Program.Acceptance
import PushLang.Text.Lines
import PushLang.Text.Words

namespace PushLang.Program

theorem closeToken_append (pending : List Char) (front back : List Token) :
    closeToken pending (front ++ back) = closeToken pending front ++ back := by
  unfold closeToken
  split <;> rfl

/-- What ends a word starts tokens of its own. -/
theorem tokensFrom_append {rest : List Char} (ended : EndsWord rest) (pending text : List Char) :
    tokensFrom pending (text ++ rest) = tokensFrom pending text ++ tokens rest := by
  induction text generalizing pending with
  | nil =>
    rw [List.nil_append, tokensFrom_ended ended, tokensFrom, ← closeToken_append]
    rfl
  | cons c text ih =>
    rw [List.cons_append]
    rcases cases_letter c with blank | rfl | rfl | letter
    · rw [tokensFrom_blank blank, tokensFrom_blank blank, ih, closeToken_append]
    · rw [tokensFrom_opening, tokensFrom_opening, ih, ← List.cons_append, closeToken_append]
    · rw [tokensFrom_closing, tokensFrom_closing, ih, ← List.cons_append, closeToken_append]
    · rw [tokensFrom_letter letter, tokensFrom_letter letter, ih]

theorem tokens_append {rest : List Char} (ended : EndsWord rest) (text : List Char) :
    tokens (text ++ rest) = tokens text ++ tokens rest := tokensFrom_append ended [] text

theorem endsWord_cons {c : Char} (ends : ¬ Text.IsLetter c) (rest : List Char) :
    EndsWord (c :: rest) := by
  intro first here
  cases here
  exact ends

theorem tokens_append_blank {c : Char} (blank : Text.isBlank c = true) (front back : List Char) :
    tokens (front ++ c :: back) = tokens front ++ tokens back := by
  have ends : ¬ Text.IsLetter c := by simp [Text.IsLetter, blank]
  have alone : tokens (c :: back) = tokens back := tokensFrom_blank blank [] back
  rw [tokens_append (endsWord_cons ends back), alone]

theorem tokens_group (text : List Char) :
    tokens ('(' :: text ++ [')']) = .opening :: (tokens text ++ [.closing]) := by
  have ends : ¬ Text.IsLetter ')' := by simp [Text.IsLetter]
  have first : tokens ('(' :: (text ++ [')'])) = .opening :: tokens (text ++ [')']) :=
    tokensFrom_opening [] _
  have last : tokens [')'] = [.closing] := tokensFrom_closing [] []
  rw [List.cons_append, first, tokens_append (endsWord_cons ends []), last]

private theorem tokens_intercalate_cons (line : List Char) {lines : List (List Char)}
    {text : List Char} (rest : tokens ([' '].intercalate lines) = tokens text) :
    tokens ([' '].intercalate (line :: lines)) = tokens line ++ tokens text := by
  cases lines with
  | nil =>
    rw [List.intercalate_singleton, ← rest, List.intercalate_nil, tokens, tokens, tokensFrom,
      closeToken_nil, List.append_nil]
  | cons next others =>
    rw [List.intercalate_cons_cons, List.append_assoc, List.singleton_append,
      tokens_append_blank rfl, rest]

private theorem tokens_intercalate_linesFrom (pending text : List Char) :
    tokens ([' '].intercalate (Text.linesFrom pending text)) =
      tokens (pending.reverse ++ text) := by
  induction pending, text using Text.linesFrom.induct with
  | case1 pending empty =>
    obtain rfl := List.isEmpty_iff.mp empty
    rfl
  | case2 pending nonempty =>
    rw [Text.linesFrom, if_neg nonempty, List.intercalate_singleton, List.append_nil]
  | case3 pending rest ih =>
    rw [Text.linesFrom, tokens_intercalate_cons _ ih, tokens_append_blank rfl]
    exact congrArg _ (tokens_append_blank rfl [] rest).symm
  | case4 pending rest ih =>
    rw [Text.linesFrom, tokens_intercalate_cons _ ih, tokens_append_blank rfl]
    rfl
  | case5 pending c rest noReturn noFeed ih =>
    rw [Text.linesFrom, ih, List.reverse_cons, List.append_assoc, List.singleton_append]
    · exact noReturn
    · exact noFeed

/-- Joining lines neither joins nor loses words. -/
theorem tokens_joinLines (text : List Char) : tokens (Text.joinLines text) = tokens text :=
  tokens_intercalate_linesFrom [] text

/-- A text without parentheses. -/
def IsBare (text : List Char) : Prop := '(' ∉ text ∧ ')' ∉ text

theorem isBare_cons {c : Char} {text : List Char} :
    IsBare (c :: text) ↔ c ≠ '(' ∧ c ≠ ')' ∧ IsBare text := by
  simp only [IsBare, List.mem_cons, not_or, ne_eq, eq_comm (b := c), and_assoc, and_left_comm]

theorem closeToken_map (pending : List Char) (words : List (List Char)) :
    closeToken pending (words.map .word) = (Text.closeWord pending words).map .word := by
  unfold closeToken Text.closeWord
  split <;> rfl

theorem tokensFrom_bare {text : List Char} (bare : IsBare text) (pending : List Char) :
    tokensFrom pending text = (Text.wordsFrom pending text).map .word := by
  induction text generalizing pending with
  | nil => exact closeToken_map pending []
  | cons c text ih =>
    obtain ⟨notOpening, notClosing, rest⟩ := isBare_cons.mp bare
    by_cases blank : Text.isBlank c = true
    · rw [tokensFrom_blank blank, Text.wordsFrom, if_pos blank, ih rest, closeToken_map]
    · have letter : Text.IsLetter c := ⟨Bool.eq_false_iff.mpr blank, notOpening, notClosing⟩
      rw [tokensFrom_letter letter, Text.wordsFrom, if_neg blank, ih rest]

theorem tokens_bare {text : List Char} (bare : IsBare text) :
    tokens text = (Text.words text).map .word :=
  tokensFrom_bare bare []

/-- Whether some of the tokens are parentheses. -/
def HasGroup (tokens : List Token) : Prop := .opening ∈ tokens ∨ .closing ∈ tokens

theorem hasGroup_closeToken {pending : List Char} {rest : List Token} (group : HasGroup rest) :
    HasGroup (closeToken pending rest) := by
  unfold closeToken
  split
  · exact group
  · exact group.imp (List.mem_cons_of_mem _) (List.mem_cons_of_mem _)

theorem hasGroup_tokensFrom {text : List Char} (parenthesized : ¬ IsBare text)
    (pending : List Char) :
    HasGroup (tokensFrom pending text) := by
  induction text generalizing pending with
  | nil => exact absurd ⟨by simp, by simp⟩ parenthesized
  | cons c text ih =>
    have later (notOpening : c ≠ '(') (notClosing : c ≠ ')') : ¬ IsBare text := fun bare =>
      parenthesized (isBare_cons.mpr ⟨notOpening, notClosing, bare⟩)
    rcases cases_letter c with blank | rfl | rfl | letter
    · have notOpening : c ≠ '(' := by
        rintro rfl
        cases blank
      have notClosing : c ≠ ')' := by
        rintro rfl
        cases blank
      rw [tokensFrom_blank blank]
      exact hasGroup_closeToken (ih (later notOpening notClosing) [])
    · rw [tokensFrom_opening]
      exact hasGroup_closeToken (.inl (by simp))
    · rw [tokensFrom_closing]
      exact hasGroup_closeToken (.inr (by simp))
    · rw [tokensFrom_letter letter]
      exact ih (later letter.2.1 letter.2.2) (c :: pending)

theorem reads_words (words : List (List Char)) :
    Reads (words.map .word) (words.map Atom.ofWord) := by
  induction words with
  | nil => exact .nil
  | cons word words ih => exact .word ih

theorem Reads.exists_program {tokens : List Token} {atoms : List Atom} (reads : Reads tokens atoms)
    (group : HasGroup tokens) : ∃ body, .program body ∈ atoms := by
  induction reads with
  | nil => simp [HasGroup] at group
  | word rest ih =>
    obtain ⟨body, member⟩ := ih (by simpa [HasGroup] using group)
    exact ⟨body, List.mem_cons_of_mem _ member⟩
  | @group inside tokens body atoms inner rest => exact ⟨body, List.mem_cons_self⟩

/-- A pair of parentheses around some tokens is one group that holds them all, or the first
parenthesis belongs to another one inside and more atoms follow that group. -/
theorem Reads.cases_group {inside : List Token} {atoms : List Atom}
    (reads : Reads (.opening :: (inside ++ [.closing])) atoms) :
    (∃ body, atoms = [.program body] ∧ Reads inside body) ∨ ∃ body next others,
      atoms = .program body :: next :: others := by
  generalize whole : Token.opening :: (inside ++ [.closing]) = tokens at reads
  cases reads with
  | nil => cases whole
  | word rest => cases whole
  | @group first later body others inner rest =>
    cases rest with
    | nil =>
      obtain ⟨same, -⟩ := List.append_inj' (List.cons.inj whole).2 rfl
      exact .inl ⟨body, rfl, same ▸ inner⟩
    | word _ | group _ _ => exact .inr ⟨body, _, _, rfl⟩

theorem readFrom_error {outer : List (List Atom)} {current : List Atom} {tokens : List Token}
    {cause : Error} (failed : readFrom outer current tokens = .error cause) :
    ∃ detail, cause = .parse detail := by
  induction tokens generalizing outer current with
  | nil =>
    unfold readFrom at failed
    split at failed <;> cases failed
    exact ⟨_, rfl⟩
  | cons token tokens ih =>
    cases token with
    | word text | opening => exact ih failed
    | closing =>
      cases outer with
      | nil =>
        cases failed
        exact ⟨_, rfl⟩
      | cons before others => exact ih failed

theorem ofChars_error {text : List Char} {cause : Error} (failed : ofChars text = .error cause) :
    ∃ detail, cause = .parse detail := by
  unfold ofChars at failed
  cases read : readFrom [] [] (tokens text) with
  | ok atoms => simp [read, Except.map] at failed
  | error other =>
    obtain rfl : other = cause := by simpa [read, Except.map] using failed
    exact readFrom_error read

/-- A text without parentheses is read in a group as the atoms of its words. -/
theorem ofChars_group_bare {text : List Char} (bare : IsBare text) :
    ofChars ('(' :: text ++ [')']) = .ok ((Text.words text).map Atom.ofWord) := by
  refine ofChars_eq_ok_iff.mpr ⟨[.program ((Text.words text).map Atom.ofWord)], ?_, rfl⟩
  rw [tokens_group, tokens_bare bare]
  exact .group (reads_words _) .nil

/-- Whatever is read in a group from a text with parentheses has a nested program in it. -/
theorem exists_program_of_group {text : List Char} (parenthesized : ¬ IsBare text)
    {program : Program} (read : ofChars ('(' :: text ++ [')']) = .ok program) :
    ∃ body, .program body ∈ program := by
  obtain ⟨atoms, reads, rfl⟩ := ofChars_eq_ok_iff.mp read
  rw [tokens_group] at reads
  rcases reads.cases_group with ⟨body, rfl, inner⟩ | ⟨body, next, others, rfl⟩
  · exact inner.exists_program (hasGroup_tokensFrom parenthesized [])
  · exact ⟨body, List.mem_cons_self⟩

end PushLang.Program
