import PushLang.Proofs.Program.Points

namespace PushLang

theorem Atom.length_preorder (atom : Atom) : atom.preorder.length = atom.points := by
  simpa [Program.size] using Program.length_preorder [atom]

namespace Program

theorem extract?_eq (program : Program) (index : Nat) :
    program.extract? index = (Atom.program program).preorder[index]? := by
  cases index with
  | zero => simp [extract?, Atom.preorder]
  | succ index => rw [extract?_succ, Atom.preorder, List.getElem?_cons_succ]

theorem extract?_append_left {front : List Atom} {index : Nat} (inside : index < size front)
    (rest : List Atom) :
    extract? (front ++ rest) (index + 1) = extract? front (index + 1) := by
  rw [extract?_succ, extract?_succ, preorder_append,
    List.getElem?_append_left (by rwa [length_preorder])]

theorem extract?_nested (before after : List Atom) {body : Program} {index : Nat}
    (inside : index ≤ body.size) :
    extract? (before ++ .program body :: after) (size before + 1 + index) =
      body.extract? index := by
  have present : index < (Atom.program body).preorder.length := by
    rw [Atom.length_preorder, Atom.points]
    omega
  rw [Nat.add_right_comm, extract?_succ, extract?_eq body, preorder_append, preorder_cons,
    ← length_preorder before, List.getElem?_append_right (Nat.le_add_right _ _),
    Nat.add_sub_cancel_left, List.getElem?_append_left present]

theorem add_points_le_size {program : Program} {index : Nat} {found : Atom}
    (present : program.extract? (index + 1) = some found) :
    index + found.points ≤ program.size := by
  rw [extract?_succ] at present
  induction program using Program.induction generalizing index with
  | nil => simp at present
  | leaf atom rest isLeaf ih =>
    rw [size, Atom.points_leaf isLeaf]
    rw [preorder_cons, Atom.preorder_leaf isLeaf] at present
    cases index with
    | zero =>
      obtain rfl : atom = found := by simpa using present
      rw [Atom.points_leaf isLeaf]
      omega
    | succ index =>
      have later := ih (by simpa using present)
      omega
  | nested body rest bodyIh ih =>
    rw [size, Atom.points]
    rw [preorder_cons, Atom.preorder, List.cons_append] at present
    cases index with
    | zero =>
      obtain rfl : .program body = found := by simpa using present
      rw [Atom.points]
      omega
    | succ index =>
      rw [List.getElem?_cons_succ] at present
      by_cases inside : index < body.preorder.length
      · rw [List.getElem?_append_left inside] at present
        have within := bodyIh present
        omega
      · rw [List.getElem?_append_right (Nat.not_lt.mp inside), length_preorder] at present
        rw [length_preorder] at inside
        have later := ih present
        omega

theorem exists_extract? {program : Program} {index : Nat} (inside : index < program.size) :
    ∃ found, program.extract? (index + 1) = some found ∧ index + found.points ≤ program.size := by
  obtain ⟨found, present⟩ : ∃ found, program.extract? (index + 1) = some found := by
    rw [← Option.isSome_iff_exists, isSome_extract?]
    exact inside
  exact ⟨found, present, add_points_le_size present⟩

end Program

namespace Surroundings

theorem size_fill (around : Surroundings) (siblings : List Atom) :
    (around.fill siblings).size = Program.size siblings + (around.fill []).size := by
  induction around with
  | nil => simp [fill, Program.size]
  | cons level inner ih =>
    obtain ⟨front, back⟩ := level
    simp only [fill, Program.size_append, Program.size, Atom.points, ih]
    omega

/-- The points after a member of the run are those of its later siblings and those that follow the
run. -/
theorem extract?_fill_add (around : Surroundings) (front back : List Atom) (atom : Atom)
    (further : Nat) :
    (around.fill (front ++ atom :: back)).extract?
      (around.offset + Program.size front + 1 + atom.points + further) =
      (Program.preorder back ++ around.following)[further]? := by
  have skip : around.offset + Program.size front + 1 + atom.points + further =
      around.offset + ((Program.preorder (front ++ [atom])).length + further) + 1 := by
    simp only [Program.length_preorder, Program.size_append, Program.size]
    omega
  rw [skip, Program.extract?_succ, ← List.getElem?_drop, drop_preorder_fill, List.append_cons,
    Program.preorder_append, List.append_assoc, List.getElem?_append_right (Nat.le_add_right _ _),
    Nat.add_sub_cancel_left]

/-- A point before a member of the run is apart from it, and then nothing there depends on that
member, or it is a program around it. -/
theorem extract?_fill_before (around : Surroundings) (front back : List Atom) (index : Nat)
    (before : index ≤ around.offset + Program.size front) :
    (∃ found : Atom, index + found.points ≤ around.offset + Program.size front + 1 ∧
      ∀ atom, (around.fill (front ++ atom :: back)).extract? index = some found) ∨
    ∃ inner : Surroundings, index + inner.offset = around.offset ∧
      ∀ atom, (around.fill (front ++ atom :: back)).extract? index =
        some (.program (inner.fill (front ++ atom :: back))) := by
  induction around generalizing index with
  | nil =>
    cases index with
    | zero => exact .inr ⟨[], rfl, fun atom => rfl⟩
    | succ index =>
      simp only [offset, Nat.zero_add] at before ⊢
      obtain ⟨found, present, extent⟩ := Program.exists_extract? before
      refine .inl ⟨found, by omega, fun atom => ?_⟩
      rw [fill, Program.extract?_append_left before, present]
  | cons level inner ih =>
    obtain ⟨left, right⟩ := level
    simp only [offset] at before
    cases index with
    | zero => exact .inr ⟨_, Nat.zero_add _, fun atom => rfl⟩
    | succ index =>
      by_cases outside : index < Program.size left
      · obtain ⟨found, present, extent⟩ := Program.exists_extract? outside
        refine .inl ⟨found, by simp only [offset]; omega, fun atom => ?_⟩
        rw [fill, Program.extract?_append_left outside, present]
      · obtain ⟨below, rfl⟩ := Nat.exists_eq_add_of_le (Nat.not_lt.mp outside)
        have nested (atom : Atom) : (fill ((left, right) :: inner) (front ++ atom :: back)).extract?
            (Program.size left + below + 1) =
              (fill inner (front ++ atom :: back)).extract? below := by
          have deep := offset_add_size_lt inner front back atom
          rw [fill, Nat.add_right_comm]
          exact Program.extract?_nested left right (by omega)
        rcases ih below (by omega) with ⟨found, extent, same⟩ | ⟨deeper, level, same⟩
        · exact .inl ⟨found, by simp only [offset]; omega,
            fun atom => (nested atom).trans (same atom)⟩
        · exact .inr ⟨deeper, by simp only [offset]; omega,
            fun atom => (nested atom).trans (same atom)⟩

end Surroundings

/-- A replacement is found where it was put, and putting back what was there gives the old program.
Points after the replaced one move by the difference in size, points before it whose atoms end
before it stay as they are, and an atom around it has the replacement at the same distance
inside. -/
theorem Program.replace?_renumbers (program : Program) (index : Nat) (positive : 1 ≤ index)
    (inside : index ≤ program.size) (replacement : Atom) :
    ∃ old found edited,
      program.pointsAt? index = some old ∧ program.extract? index = some found ∧
      program.replace? index replacement = some edited ∧
      edited.extract? index = some replacement ∧
      edited.points = program.points - old + replacement.points ∧ old ≤ program.points ∧
      program.replace? index found = some program ∧
      (∀ other, index + old ≤ other → other ≤ program.size →
        edited.extract? (other - old + replacement.points) = program.extract? other) ∧
      (∀ other span, program.pointsAt? other = some span → other < index → other + span ≤ index →
        edited.extract? other = program.extract? other) ∧
      (∀ other span, program.pointsAt? other = some span → other < index → index < other + span →
        ∃ body changed : Program, program.extract? other = some (.program body) ∧
          body.extract? (index - other) = some found ∧
          body.replace? (index - other) replacement = some changed ∧
          edited.extract? other = some (.program changed)) := by
  obtain ⟨before, rfl⟩ := Nat.exists_eq_add_of_le' positive
  obtain ⟨around, front, found, back, rfl, rfl, located⟩ := program.exists_locate? before inside
  refine ⟨found.points, found, around.fill (front ++ replacement :: back), ?_,
    around.extract?_fill front back found, replace?_of_locate? located replacement,
    around.extract?_fill front back replacement, ?_, ?_, replace?_of_locate? located found, ?_, ?_,
    ?_⟩
  · rw [pointsAt?_eq, around.extract?_fill, Option.map_some]
  · simp only [points, around.size_fill (_ ++ _), size_append, size]
    omega
  · simp only [points, around.size_fill (_ ++ _), size_append, size]
    omega
  · intro other beyond _
    obtain ⟨further, rfl⟩ := Nat.exists_eq_add_of_le beyond
    have moved :
      around.offset + size front + 1 + found.points + further - found.points + replacement.points =
        around.offset + size front + 1 + replacement.points + further := by omega
    rw [moved, around.extract?_fill_add, around.extract?_fill_add]
  · intro other span extent before apart
    rw [pointsAt?_eq] at extent
    rcases around.extract?_fill_before front back other (Nat.le_of_lt_succ before) with
      ⟨kept, -, same⟩ | ⟨inner, level, same⟩
    · rw [same, same]
    · have deep := inner.offset_add_size_lt front back found
      rw [same, Option.map_some, Option.some.injEq, Atom.points] at extent
      omega
  · intro other span extent before enclosed
    rw [pointsAt?_eq] at extent
    rcases around.extract?_fill_before front back other (Nat.le_of_lt_succ before) with
      ⟨kept, apart, same⟩ | ⟨inner, level, same⟩
    · rw [same, Option.map_some, Option.some.injEq] at extent
      omega
    · have distance : around.offset + size front + 1 - other = inner.offset + size front + 1 := by
        omega
      rw [distance]
      exact ⟨inner.fill (front ++ found :: back), inner.fill (front ++ replacement :: back),
        same found, inner.extract?_fill front back found,
        replace?_of_locate? (inner.locate?_fill front back found) replacement, same replacement⟩

/-- A nested program is exchanged for a larger one, in a program with points before, after and
around it. -/
theorem Program.replace?_renumbers_nested :
    let program : Program := [.integer 1, .program [.name "x", .program [.integer 2]], .integer 3]
    let replacement : Atom := .program [.integer 7, .integer 8]
    1 ≤ 4 ∧ 4 ≤ program.size ∧ program.pointsAt? 4 = some 2 ∧
      ∃ edited body changed : Program, program.replace? 4 replacement = some edited ∧
        edited.extract? 4 = some replacement ∧ edited.points = 8 ∧
        edited.extract? 7 = program.extract? 6 ∧ edited.extract? 3 = program.extract? 3 ∧
        program.extract? 2 = some (.program body) ∧ body.replace? 2 replacement = some changed ∧
        edited.extract? 2 = some (.program changed) := by
  intro program replacement
  have own : program.pointsAt? 4 = some 2 := rfl
  obtain ⟨old, found, edited, extent, -, replaced, put, points, -, -, after, before, above⟩ :=
    program.replace?_renumbers 4 (by decide) (by decide) replacement
  obtain rfl : 2 = old := Option.some.inj (own.symm.trans extent)
  obtain ⟨body, changed, outer, -, within, rebuilt⟩ := above 2 4 rfl (by decide) (by decide)
  exact ⟨by decide, by decide, own, edited, body, changed, replaced, put, points,
    after 6 (by decide) (by decide), before 3 1 rfl (by decide) (by decide), outer, within, rebuilt⟩

end PushLang
