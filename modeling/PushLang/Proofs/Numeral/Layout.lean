import PushLang.Numeral.Shortest
import PushLang.Proofs.Binary32.Nearest
import PushLang.Proofs.Numeral.Integer

namespace PushLang.Numeral

/-- The number that a scaled one stands for. -/
def Scaled.value (scaled : Scaled) : ℚ := scaled.digits * 10 ^ scaled.exponent

/-- The parts of a numeral without a sign: digits, the digits after a point, and an exponent. -/
structure Layout where
  whole : List Char
  fraction : Option (List Char)
  exponent : Option Int
  nonempty : whole ≠ []
  digits : ∀ c ∈ whole ++ fraction.getD [], c.isDigit = true

namespace Layout

/-- What follows the digits before the point. -/
def tail (layout : Layout) : List Char :=
  (layout.fraction.elim [] fun digits => '.' :: digits) ++ layout.exponent.elim [] fun power =>
    'e' :: ofInt power

def text (layout : Layout) : List Char := layout.whole ++ layout.tail

/-- The number that the parts stand for. -/
def scaled (layout : Layout) : Scaled where
  digits := Nat.ofDigitChars 10 (layout.whole ++ layout.fraction.getD []) 0
  exponent := layout.exponent.getD 0 - (layout.fraction.getD []).length

/-- A point or an exponent tells a numeral from one of an integer. -/
def IsMarked (layout : Layout) : Prop := layout.fraction.isSome ∨ layout.exponent.isSome

theorem isDigit_of_mem_whole (layout : Layout) {c : Char} (member : c ∈ layout.whole) :
    c.isDigit = true :=
  layout.digits c (List.mem_append_left _ member)

private theorem takeWhile_digits {digits rest : List Char} (all : ∀ c ∈ digits, c.isDigit = true)
    (ends : ∀ c ∈ rest.head?, c.isDigit = false) :
    (digits ++ rest).takeWhile Char.isDigit = digits := by
  rw [List.takeWhile_append_of_pos all]
  cases rest with
  | nil => simp
  | cons c rest => simp [ends c rfl]

private theorem dropWhile_digits {digits rest : List Char} (all : ∀ c ∈ digits, c.isDigit = true)
    (ends : ∀ c ∈ rest.head?, c.isDigit = false) :
    (digits ++ rest).dropWhile Char.isDigit = rest := by
  rw [List.dropWhile_append_of_pos all]
  cases rest with
  | nil => simp
  | cons c rest => simp [ends c rfl]

private theorem exponent?_text (exponent : Option Int) :
    exponent? (exponent.elim [] fun power => 'e' :: ofInt power) = some (exponent.getD 0) := by
  cases exponent with
  | none => rfl
  | some power => simp [exponent?, integer?_ofInt]

theorem scaled?_text (layout : Layout) : scaled? layout.text = some layout.scaled := by
  have ends : ∀ c ∈ (layout.exponent.elim [] fun power => 'e' :: ofInt power).head?,
      c.isDigit = false := by
    intro c first
    cases present : layout.exponent with
    | none => simp [present] at first
    | some power =>
      simp only [present, Option.elim_some, List.head?_cons, Option.mem_some_iff] at first
      subst c
      decide
  cases point : layout.fraction with
  | none =>
    have shape : layout.text = layout.whole ++ layout.exponent.elim [] fun power =>
        'e' :: ofInt power := by
      simp [text, tail, point]
    have split : splitFraction (layout.exponent.elim [] fun power => 'e' :: ofInt power) =
        ([], layout.exponent.elim [] fun power => 'e' :: ofInt power) := by
      cases layout.exponent <;> rfl
    have all : ∀ c ∈ layout.whole, c.isDigit = true := fun _ => layout.isDigit_of_mem_whole
    simp only [scaled?, shape, takeWhile_digits all ends, dropWhile_digits all ends, split,
      exponent?_text]
    simp [scaled, point, layout.nonempty]
  | some fraction =>
    have shape : layout.text = layout.whole ++
        ('.' :: (fraction ++ layout.exponent.elim [] fun power => 'e' :: ofInt power)) := by
      simp [text, tail, point]
    have all : ∀ c ∈ layout.whole, c.isDigit = true := fun _ => layout.isDigit_of_mem_whole
    have more : ∀ c ∈ fraction, c.isDigit = true := fun c member =>
      layout.digits c (by simp [point, member])
    have stop : ∀ c ∈ ('.' :: (fraction ++ layout.exponent.elim [] fun power =>
        'e' :: ofInt power)).head?, c.isDigit = false := by simp
    simp only [scaled?, shape, takeWhile_digits all stop, dropWhile_digits all stop, splitFraction,
      takeWhile_digits more ends, dropWhile_digits more ends, exponent?_text]
    simp [scaled, point, layout.nonempty]

theorem mem_text (layout : Layout) {c : Char} (member : c ∈ layout.text) :
    c.isDigit = true ∨ c = '.' ∨ c = 'e' ∨ c = '-' := by
  simp only [text, tail, List.mem_append] at member
  rcases member with whole | fraction | exponent
  · exact .inl (layout.isDigit_of_mem_whole whole)
  · cases point : layout.fraction with
    | none => simp [point] at fraction
    | some digits =>
      simp only [point, Option.elim_some, List.mem_cons] at fraction
      rcases fraction with mark | digit
      · exact .inr (.inl mark)
      · exact .inl (layout.digits c (by simp [point, digit]))
  · cases power : layout.exponent with
    | none => simp [power] at exponent
    | some value =>
      simp only [power, Option.elim_some, List.mem_cons] at exponent
      rcases exponent with mark | digit
      · exact .inr (.inr (.inl mark))
      · rcases mem_ofInt digit with digit | sign
        · exact .inl digit
        · exact .inr (.inr (.inr sign))

theorem IsMarked.exists_mem_tail {layout : Layout} (marked : layout.IsMarked) :
    ∃ c ∈ layout.tail, c.isDigit = false := by
  cases point : layout.fraction with
  | some digits => exact ⟨'.', by simp [tail, point], by decide⟩
  | none =>
    cases power : layout.exponent with
      | some value => exact ⟨'e', by simp [tail, point, power], by decide⟩
      | none => simp [IsMarked, point, power] at marked

theorem splitSign_text (layout : Layout) : splitSign layout.text = (false, layout.text) := by
  obtain ⟨first, rest, same⟩ := List.exists_cons_of_ne_nil layout.nonempty
  have digit : first.isDigit = true := layout.isDigit_of_mem_whole (by simp [same])
  have shape : layout.text = first :: (rest ++ layout.tail) := by simp [text, same]
  rw [shape]
  exact splitSign_cons_digit digit _

end Layout

end PushLang.Numeral
