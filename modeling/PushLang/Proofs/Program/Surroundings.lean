import PushLang.Program.Point
import PushLang.Program.Segment
import PushLang.Proofs.Program.Preorder
import PushLang.Proofs.Program.Walk

/-! A run of siblings with its surroundings. Every point and every segment of a program is given by
such a pair, and an edit keeps the surroundings and changes the run alone. -/

namespace PushLang

/-- What surrounds a run of siblings: on every level from the root down, the atoms before and after
the nested program that holds the run. -/
abbrev Surroundings := List (List Atom × List Atom)

namespace Surroundings

/-- The program with a run of siblings in these surroundings. -/
def fill : Surroundings → List Atom → Program
  | [], siblings => siblings
  | (front, back) :: inner, siblings => front ++ .program (fill inner siblings) :: back

/-- The path to the program that holds the run. -/
def path (around : Surroundings) : List Nat := around.map fun level => level.1.length

/-- How many points come before the run. -/
def offset : Surroundings → Nat
  | [] => 0
  | (front, _) :: inner => Program.size front + 1 + offset inner

theorem descend?_fill (around : Surroundings) (siblings : List Atom) :
    (around.fill siblings).descend? around.path = some siblings := by
  induction around with
  | nil => rfl
  | cons level inner ih =>
    obtain ⟨front, back⟩ := level
    simpa [fill, path, Program.descend?] using ih

/-- An edit below a path leaves everything but the edited run alone. -/
theorem spliceAt_fill (around : Surroundings) (front run back replacement : List Atom) :
    Program.spliceAt front.length (front.length + run.length) replacement around.path
      (around.fill (front ++ run ++ back)) = .ok (around.fill (front ++ replacement ++ back)) := by
  induction around with
  | nil => simp [fill, path, Program.spliceAt, List.drop_append]
  | cons level inner ih =>
    obtain ⟨before, after⟩ := level
    simp only [path, List.append_assoc] at ih
    simp [fill, path, Program.spliceAt, ih, Except.map]

/-- The leaves in the surroundings and in the run make up those of the program. -/
theorem count_leaves_fill (around : Surroundings) (siblings : List Atom) (leaf : Atom) :
    (around.fill siblings).leaves.count leaf =
      (Program.leaves siblings).count leaf + (around.fill []).leaves.count leaf := by
  induction around with
  | nil => simp [fill]
  | cons level inner ih =>
    obtain ⟨front, back⟩ := level
    simp only [fill, Program.leaves_append, Program.leaves_nested, List.count_append, ih]
    omega

theorem nestedPoints_fill (around : Surroundings) (siblings : List Atom) :
    (around.fill siblings).nestedPoints =
      Program.nestedPoints siblings + (around.fill []).nestedPoints := by
  induction around with
  | nil => simp [fill]
  | cons level inner ih =>
    obtain ⟨front, back⟩ := level
    simp only [fill, Program.nestedPoints_append, Program.nestedPoints_nested, ih]
    omega

theorem offset_add_size_le (around : Surroundings) (siblings : List Atom) :
    around.offset + Program.size siblings ≤ (around.fill siblings).size := by
  induction around with
  | nil => simp [fill, offset]
  | cons level inner ih =>
    obtain ⟨front, back⟩ := level
    simp only [fill, offset, Program.size_append, Program.size, Atom.points]
    omega

theorem offset_add_size_lt (around : Surroundings) (front back : List Atom) (atom : Atom) :
    around.offset + Program.size front < (around.fill (front ++ atom :: back)).size := by
  have extent := around.offset_add_size_le (front ++ atom :: back)
  have positive := atom.points_pos
  simp only [Program.size_append, Program.size] at extent
  omega

/-- The points that come after the run. -/
def following : Surroundings → List Atom
  | [] => []
  | (_, back) :: inner => following inner ++ Program.preorder back

theorem drop_preorder_fill (around : Surroundings) (siblings : List Atom) :
    (around.fill siblings).preorder.drop around.offset =
      Program.preorder siblings ++ around.following := by
  induction around with
  | nil => simp [fill, offset, following]
  | cons level inner ih =>
    obtain ⟨front, back⟩ := level
    have bound : offset inner ≤ (fill inner siblings).preorder.length := by
      rw [Program.length_preorder]
      exact Nat.le_trans (Nat.le_add_right _ _) (offset_add_size_le inner siblings)
    have skip : Program.size front + 1 + offset inner =
        (Program.preorder front).length + (offset inner + 1) := by
      rw [Program.length_preorder]
      omega
    simp only [fill, offset, following, Program.preorder_append, Program.preorder_cons,
      Atom.preorder]
    rw [skip, List.drop_length_add_append, List.cons_append, List.drop_succ_cons,
      List.drop_append_of_le_length bound, ih, List.append_assoc]

theorem extract?_fill (around : Surroundings) (front back : List Atom) (atom : Atom) :
    (around.fill (front ++ atom :: back)).extract? (around.offset + Program.size front + 1) =
      some atom := by
  obtain ⟨inner, own⟩ := atom.exists_preorder_eq
  rw [Program.extract?_succ, ← List.getElem?_drop, drop_preorder_fill, Program.preorder_append,
    Program.preorder_cons, own, ← Program.length_preorder, List.append_assoc,
    List.getElem?_append_right (Nat.le_refl _), Nat.sub_self]
  rfl

end Surroundings

theorem Atom.locateWithin_zero (atom : Atom) : atom.locateWithin 0 = some [] := by
  cases atom <;> simp [Atom.locateWithin]

theorem Atom.locateWithin_succ (body : Program) (remaining : Nat) :
    (Atom.program body).locateWithin (remaining + 1) = Program.locateAmong 0 body remaining := by
  simp [Atom.locateWithin]

namespace Program

theorem locate?_zero (program : Program) : program.locate? 0 = some [] := Atom.locateWithin_zero _

theorem locate?_succ (program : Program) (index : Nat) :
    program.locate? (index + 1) = locateAmong 0 program index :=
  Atom.locateWithin_succ program index

theorem locateAmong_append (front rest : List Atom) (position remaining : Nat) :
    locateAmong position (front ++ rest) (size front + remaining) =
      locateAmong (position + front.length) rest remaining := by
  induction front generalizing position with
  | nil => simp [size]
  | cons atom front ih =>
    have beyond : ¬ size (atom :: front) + remaining < atom.points := by
      simp only [size]
      omega
    have left : size (atom :: front) + remaining - atom.points = size front + remaining := by
      simp only [size]
      omega
    rw [List.cons_append, locateAmong, if_neg beyond, left, ih, List.length_cons, Nat.add_assoc,
      Nat.add_comm 1]

end Program

/-- The path to a point is that of its surroundings, with its place among its siblings. -/
theorem Surroundings.locate?_fill (around : Surroundings) (front back : List Atom) (atom : Atom) :
    (around.fill (front ++ atom :: back)).locate? (around.offset + Program.size front + 1) =
      some (around.path ++ [front.length]) := by
  rw [Program.locate?_succ]
  induction around with
  | nil =>
    have first := Program.locateAmong_append front (atom :: back) 0 0
    simp only [Program.locateAmong, atom.points_pos, if_true, Atom.locateWithin_zero] at first
    simpa [fill, offset, path] using first
  | cons level inner ih =>
    obtain ⟨before, after⟩ := level
    have within : offset inner + Program.size front + 1 <
        (Atom.program (fill inner (front ++ atom :: back))).points := by
      rw [Atom.points]
      exact Nat.succ_lt_succ (offset_add_size_lt inner front back atom)
    have skip : offset ((before, after) :: inner) + Program.size front =
        Program.size before + (offset inner + Program.size front + 1) := by
      simp only [offset]
      omega
    rw [fill, skip, Program.locateAmong_append, Program.locateAmong, if_pos within,
      Atom.locateWithin_succ, ih]
    simp [path]

namespace Program

/-- A point inside some siblings, after others, has its surroundings. -/
theorem exists_fill (siblings done : List Atom) (remaining : Nat)
    (inside : remaining < size siblings) :
    ∃ (around : Surroundings) (front : List Atom) (atom : Atom) (back : List Atom),
      done ++ siblings = around.fill (front ++ atom :: back) ∧
      size done + remaining = around.offset + size front := by
  induction siblings using Program.induction generalizing done remaining with
  | nil => simp [size] at inside
  | leaf atom rest isLeaf ih =>
    cases remaining with
    | zero => exact ⟨[], done, atom, rest, rfl, by simp [Surroundings.offset]⟩
    | succ below =>
      have bound : below < size rest := by
        simp only [size, Atom.points_leaf isLeaf] at inside
        omega
      obtain ⟨around, front, found, back, shape, points⟩ := ih (done ++ [atom]) below bound
      refine ⟨around, front, found, back, by simpa using shape, ?_⟩
      simp only [size_append, size, Atom.points_leaf isLeaf] at points
      omega
  | nested body rest bodyIh ih =>
    have points : (Atom.program body).points = size body + 1 := by simp [Atom.points]
    cases remaining with
    | zero => exact ⟨[], done, .program body, rest, rfl, by simp [Surroundings.offset]⟩
    | succ below =>
      by_cases inner : below < size body
      · obtain ⟨around, front, found, back, shape, offset⟩ := bodyIh [] below inner
        refine ⟨(done, rest) :: around, front, found, back, ?_, ?_⟩
        · simp only [Surroundings.fill, ← shape, List.nil_append]
        · simp only [size] at offset
          simp only [Surroundings.offset]
          omega
      · have bound : below + 1 - (size body + 1) < size rest := by
          simp only [size, points] at inside
          omega
        obtain ⟨around, front, found, back, shape, offset⟩ := ih (done ++ [.program body]) _ bound
        refine ⟨around, front, found, back, by simpa using shape, ?_⟩
        simp only [size_append, size, points] at offset
        omega

theorem locateAmong_eq_none (siblings : List Atom) (position remaining : Nat)
    (outside : size siblings ≤ remaining) :
    locateAmong position siblings remaining = none := by
  induction siblings generalizing position remaining with
  | nil => simp [locateAmong]
  | cons atom rest ih =>
    simp only [size] at outside
    have beyond : ¬ remaining < atom.points := by omega
    rw [locateAmong, if_neg beyond]
    exact ih _ _ (by omega)

/-- Every point below the root is found with its surroundings. -/
theorem exists_locate? (program : Program) (index : Nat) (inside : index < program.size) :
    ∃ (around : Surroundings) (front : List Atom) (atom : Atom) (back : List Atom),
      program = around.fill (front ++ atom :: back) ∧ index = around.offset + size front ∧
      program.locate? (index + 1) = some (around.path ++ [front.length]) := by
  obtain ⟨around, front, atom, back, shape, points⟩ := exists_fill program [] index inside
  have same : index = around.offset + size front := by simpa [size] using points
  rw [List.nil_append] at shape
  subst shape same
  exact ⟨around, front, atom, back, rfl, rfl, around.locate?_fill front back atom⟩

theorem replace?_of_locate? {around : Surroundings} {front back : List Atom} {atom : Atom}
    {index : Nat}
    (located : (around.fill (front ++ atom :: back)).locate? index =
      some (around.path ++ [front.length]))
    (replacement : Atom) :
    (around.fill (front ++ atom :: back)).replace? index replacement =
      some (around.fill (front ++ replacement :: back)) := by
  have spliced := around.spliceAt_fill front [atom] back [replacement]
  simp only [List.length_singleton, List.append_assoc, List.cons_append, List.nil_append] at spliced
  simp [replace?, located, spliced, Except.toOption]

theorem reach_le_length (high next : Nat) (siblings : List Atom) :
    reach high next siblings ≤ siblings.length := by
  induction siblings generalizing next with
  | nil => simp [reach]
  | cons atom rest ih =>
    rw [reach, List.length_cons]
    split
    · exact Nat.succ_le_succ (ih _)
    · omega

/-- The segment from a point on takes in the siblings that its high point reaches. -/
theorem segment?_of_locate? {around : Surroundings} {front back : List Atom} {first : Atom}
    {low : Nat}
    (located : (around.fill (front ++ first :: back)).locate? low =
      some (around.path ++ [front.length]))
    (high : Nat) :
    (around.fill (front ++ first :: back)).segment? low high = some
      { parent := around.path
        start := front.length
        stop := front.length + 1 + reach high (low + first.points) back
        atoms := first :: back.take (reach high (low + first.points) back) } := by
  have after : (front ++ first :: back).drop (front.length + 1) = back := by
    simp [List.drop_append]
  have run : (front ++ first :: back).drop front.length = first :: back := by simp
  simp only [segment?, located, Option.bind_eq_bind, Option.bind_some, List.getLast?_concat,
    List.dropLast_concat, around.descend?_fill, List.getElem?_append_right (Nat.le_refl _),
    Nat.sub_self, List.getElem?_cons_zero, after, run, List.take_succ_cons, Option.pure_def]

end Program

end PushLang
