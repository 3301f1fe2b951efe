import PushLang.Program.Reader

namespace PushLang

namespace Text

/-- The characters that words are made of: neither blanks nor parentheses. -/
def IsLetter (c : Char) : Prop := isBlank c = false ∧ c ≠ '(' ∧ c ≠ ')'

/-- The texts that are single words. -/
structure IsWord (text : List Char) : Prop where
  nonempty : text ≠ []
  letters : ∀ c ∈ text, IsLetter c

theorem isLetter_of_isDigit {c : Char} (digit : c.isDigit = true) : IsLetter c := by
  have range : 48 ≤ c.toNat ∧ c.toNat ≤ 57 := by
    simpa [Char.isDigit, UInt32.le_iff_toNat_le] using digit
  refine ⟨?_, ?_, ?_⟩
  · simp only [isBlank]
    grind
  · rintro rfl
    exact absurd range (by decide)
  · rintro rfl
    exact absurd range (by decide)

end Text

namespace Program

@[simp] theorem closeToken_nil (rest : List Token) : closeToken [] rest = rest := rfl

theorem tokensFrom_blank {c : Char} (blank : Text.isBlank c = true) (pending rest : List Char) :
    tokensFrom pending (c :: rest) = closeToken pending (tokensFrom [] rest) := by
  simp [tokensFrom, blank]

theorem tokensFrom_opening (pending rest : List Char) :
    tokensFrom pending ('(' :: rest) = closeToken pending (.opening :: tokensFrom [] rest) := by
  have notBlank : Text.isBlank '(' = false := rfl
  simp [tokensFrom, notBlank]

theorem tokensFrom_closing (pending rest : List Char) :
    tokensFrom pending (')' :: rest) = closeToken pending (.closing :: tokensFrom [] rest) := by
  have notBlank : Text.isBlank ')' = false := rfl
  simp [tokensFrom, notBlank]

theorem tokensFrom_letter {c : Char} (letter : Text.IsLetter c) (pending rest : List Char) :
    tokensFrom pending (c :: rest) = tokensFrom (c :: pending) rest := by
  obtain ⟨notBlank, notOpening, notClosing⟩ := letter
  simp [tokensFrom, notBlank, notOpening, notClosing]

theorem cases_letter (c : Char) : Text.isBlank c = true ∨ c = '(' ∨ c = ')' ∨ Text.IsLetter c := by
  by_cases blank : Text.isBlank c = true
  · exact .inl blank
  · by_cases opening : c = '('
    · exact .inr (.inl opening)
    · by_cases closing : c = ')'
      · exact .inr (.inr (.inl closing))
      · exact .inr (.inr (.inr ⟨Bool.eq_false_iff.mpr blank, opening, closing⟩))

theorem tokensFrom_letters {word : List Char} (letters : ∀ c ∈ word, Text.IsLetter c)
    (pending rest : List Char) :
    tokensFrom pending (word ++ rest) = tokensFrom (word.reverse ++ pending) rest := by
  induction word generalizing pending with
  | nil => rfl
  | cons c word ih =>
    rw [List.cons_append, tokensFrom_letter (letters c (by simp)),
      ih (fun letter member => letters letter (by simp [member]))]
    simp

/-- What ends a word: the end of the text, a blank or a parenthesis. -/
def EndsWord (rest : List Char) : Prop := ∀ c ∈ rest.head?, ¬ Text.IsLetter c

theorem tokensFrom_ended {rest : List Char} (ended : EndsWord rest) (pending : List Char) :
    tokensFrom pending rest = closeToken pending (tokensFrom [] rest) := by
  cases rest with
  | nil => rfl
  | cons c rest =>
    rcases cases_letter c with blank | rfl | rfl | letter
    · simp [tokensFrom_blank blank]
    · simp [tokensFrom_opening]
    · simp [tokensFrom_closing]
    · exact absurd letter (ended c rfl)

theorem tokensFrom_word {word rest : List Char} (isWord : Text.IsWord word)
    (ended : EndsWord rest) :
    tokensFrom [] (word ++ rest) = .word word :: tokensFrom [] rest := by
  rw [tokensFrom_letters isWord.letters, tokensFrom_ended ended]
  simp [closeToken, isWord.nonempty]

private theorem isWord_of_mem_closeToken {pending word : List Char} {rest : List Token}
    (letters : ∀ c ∈ pending, Text.IsLetter c)
    (member : Token.word word ∈ closeToken pending rest) :
    Text.IsWord word ∨ Token.word word ∈ rest := by
  cases pending with
  | nil => exact .inr member
  | cons c pending =>
    rcases List.mem_cons.mp member with same | later
    · cases same
      exact .inl ⟨by simp, fun letter here => letters letter (List.mem_reverse.mp here)⟩
    · exact .inr later

private theorem isWord_of_mem_tokensFrom {pending text word : List Char}
    (letters : ∀ c ∈ pending, Text.IsLetter c)
    (member : Token.word word ∈ tokensFrom pending text) : Text.IsWord word := by
  have none : ∀ c ∈ ([] : List Char), Text.IsLetter c := by simp
  induction text generalizing pending with
  | nil =>
    rcases isWord_of_mem_closeToken letters member with isWord | absent
    · exact isWord
    · cases absent
  | cons c text ih =>
    rcases cases_letter c with blank | rfl | rfl | letter
    · rw [tokensFrom_blank blank] at member
      rcases isWord_of_mem_closeToken letters member with isWord | later
      · exact isWord
      · exact ih none later
    · rw [tokensFrom_opening] at member
      rcases isWord_of_mem_closeToken letters member with isWord | later
      · exact isWord
      · exact ih none (by simpa using later)
    · rw [tokensFrom_closing] at member
      rcases isWord_of_mem_closeToken letters member with isWord | later
      · exact isWord
      · exact ih none (by simpa using later)
    · rw [tokensFrom_letter letter] at member
      refine ih (fun other here => ?_) member
      rcases List.mem_cons.mp here with rfl | before
      · exact letter
      · exact letters other before

theorem isWord_of_mem_tokens {text word : List Char} (member : Token.word word ∈ tokens text) :
    Text.IsWord word :=
  isWord_of_mem_tokensFrom (by simp) member

end Program

end PushLang
