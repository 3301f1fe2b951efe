import PushLang.Proofs.Program.Replacement

/-! Segments are runs of siblings that go as far as their high point, and an edit changes nothing
around them. Where a segment lies is said by its surroundings and the siblings in front of it and
behind it. -/

namespace PushLang

namespace Surroundings

/-- A path and the program it leads through fix the surroundings and what they hold. -/
theorem eq_of_fill_eq {around other : Surroundings} {siblings run : List Atom}
    (path : around.path = other.path) (same : around.fill siblings = other.fill run) :
    around = other ∧ siblings = run := by
  induction around generalizing other with
  | nil =>
    obtain rfl : other = [] := by simpa [Surroundings.path] using path.symm
    exact ⟨rfl, same⟩
  | cons level inner ih =>
    obtain ⟨front, back⟩ := level
    cases other with
    | nil => simp [Surroundings.path] at path
    | cons outer deeper =>
      obtain ⟨before, after⟩ := outer
      simp only [Surroundings.path, List.map_cons, List.cons.injEq] at path
      obtain ⟨length, deep⟩ := path
      obtain ⟨rfl, rest⟩ := List.append_inj same length
      obtain ⟨nested, rfl⟩ := List.cons.inj rest
      obtain ⟨rfl, rfl⟩ := ih deep (Atom.program.inj nested)
      exact ⟨rfl, rfl⟩

/-- The siblings before a member of the run take up the points before its own. -/
theorem locate?_member (around : Surroundings) {siblings : List Atom} {position : Nat}
    {member : Atom} (found : siblings[position]? = some member) :
    (around.fill siblings).locate? (around.offset + Program.size (siblings.take position) + 1) =
        some (around.path ++ [position]) ∧
      (around.fill siblings).extract? (around.offset + Program.size (siblings.take position) + 1) =
        some member := by
  obtain ⟨inside, rfl⟩ := List.getElem?_eq_some_iff.mp found
  have shape :
      siblings.take position ++ siblings[position] :: siblings.drop (position + 1) = siblings := by
    rw [← List.drop_eq_getElem_cons inside, List.take_append_drop]
  have length : (siblings.take position).length = position :=
    List.length_take_of_le (Nat.le_of_lt inside)
  have located :=
    around.locate?_fill (siblings.take position) (siblings.drop (position + 1)) siblings[position]
  have present :=
    around.extract?_fill (siblings.take position) (siblings.drop (position + 1)) siblings[position]
  rw [shape, length] at located
  rw [shape] at present
  exact ⟨located, present⟩

/-- No other point has the path of a member of the run. -/
theorem point_of_locate? {around : Surroundings} {siblings : List Atom} {point position : Nat}
    (located : (around.fill siblings).locate? point = some (around.path ++ [position])) :
    position < siblings.length ∧
      point = around.offset + Program.size (siblings.take position) + 1 := by
  cases point with
  | zero => simp [Program.locate?_zero] at located
  | succ index =>
    have inside : index + 1 ≤ (around.fill siblings).size := by
      rw [← Program.isSome_locate?, located]
      rfl
    obtain ⟨other, front, member, back, shape, rfl, own⟩ :=
      (around.fill siblings).exists_locate? index inside
    rw [located, Option.some.injEq] at own
    obtain ⟨path, last⟩ := List.append_inj' own rfl
    obtain rfl : position = front.length := List.singleton_inj.mp last
    obtain ⟨rfl, rfl⟩ := eq_of_fill_eq path shape
    exact ⟨by simp, by simp⟩

end Surroundings

namespace Program

/-- A sibling is reached if it starts at or before the high point. -/
theorem lt_reach_iff (high next position : Nat) (siblings : List Atom) :
    position < reach high next siblings ↔
      position < siblings.length ∧ next + size (siblings.take position) ≤ high := by
  induction siblings generalizing next position with
  | nil => simp [reach]
  | cons atom rest ih =>
    rw [reach]
    split
    · cases position with
      | zero => simpa [size]
      | succ position =>
        rw [Nat.succ_lt_succ_iff, ih, List.length_cons, Nat.succ_lt_succ_iff, List.take_succ_cons,
          size, Nat.add_assoc]
    · rename_i beyond
      refine iff_of_false (Nat.not_lt_zero position) fun within => beyond ?_
      exact Nat.le_trans (Nat.le_add_right _ _) within.2

/-- A segment with what lies around it: it takes up the places between the siblings in front of it
and those behind it. -/
structure Segment.LiesIn (segment : Segment) (program : Program) (around : Surroundings)
    (front back : List Atom) :
    Prop where
  program_eq : program = around.fill (front ++ segment.atoms ++ back)
  parent_eq : segment.parent = around.path
  start_eq : segment.start = front.length
  stop_eq : segment.stop = front.length + segment.atoms.length

namespace Segment.LiesIn

variable {segment : Segment} {program : Program} {around : Surroundings} {front back : List Atom}

theorem descend?_eq (lies : segment.LiesIn program around front back) :
    program.descend? segment.parent = some (front ++ segment.atoms ++ back) := by
  rw [lies.parent_eq, lies.program_eq, around.descend?_fill]

theorem splice_eq (lies : segment.LiesIn program around front back) (replacement : List Atom) :
    program.splice segment replacement = .ok (around.fill (front ++ replacement ++ back)) := by
  rw [splice, lies.parent_eq, lies.start_eq, lies.stop_eq, lies.program_eq]
  exact around.spliceAt_fill front segment.atoms back replacement

/-- A replacement takes up its own points instead of those of the segment. -/
theorem points_eq (lies : segment.LiesIn program around front back) (replacement : List Atom) :
    segment.points ≤ program.points ∧
      (around.fill (front ++ replacement ++ back)).points =
        program.points - segment.points + size replacement := by
  rw [lies.program_eq]
  simp only [Segment.points, Program.points, around.size_fill (_ ++ _), size_append]
  omega

end Segment.LiesIn

theorem isSome_segment? (program : Program) (low high : Nat) :
    (program.segment? low high).isSome ↔ 1 ≤ low ∧ low ≤ program.size := by
  cases low with
  | zero => simp [segment?, locate?_zero]
  | succ index =>
    by_cases inside : index < program.size
    · obtain ⟨around, front, first, back, rfl, -, located⟩ := program.exists_locate? index inside
      rw [segment?_of_locate? located]
      exact iff_of_true rfl ⟨Nat.succ_pos index, inside⟩
    · rw [segment?, locate?_of_lt (Nat.lt_succ_of_le (Nat.not_lt.mp inside))]
      exact iff_of_false Bool.false_ne_true fun within => inside within.2

/-- A segment starts with the atom at its low point and takes in as many of the following siblings
as its high point reaches. -/
theorem exists_liesIn {program : Program} {low high : Nat} {segment : Segment}
    (found : program.segment? low high = some segment) :
    ∃ (around : Surroundings) (front : List Atom) (first : Atom) (siblings back : List Atom),
      segment.LiesIn program around front back ∧ segment.atoms ++ back = first :: siblings ∧
        segment.atoms.head? = some first ∧ low = around.offset + size front + 1 ∧
        segment.stop = front.length + 1 + reach high (low + first.points) siblings := by
  have inside : 1 ≤ low ∧ low ≤ program.size := by
    rw [← isSome_segment? program low high, found]
    rfl
  obtain ⟨index, rfl⟩ := Nat.exists_eq_add_of_le' inside.1
  obtain ⟨around, front, first, siblings, rfl, rfl, located⟩ :=
    program.exists_locate? index inside.2
  rw [segment?_of_locate? located, Option.some.injEq] at found
  subst found
  have bound := reach_le_length high (around.offset + size front + 1 + first.points) siblings
  refine ⟨around, front, first, siblings,
    siblings.drop (reach high (around.offset + size front + 1 + first.points) siblings),
    ⟨?_, rfl, rfl, ?_⟩, ?_, rfl, rfl, rfl⟩
  · simp
  · simp only [List.length_cons, List.length_take]
    omega
  · simp

/-- Of the siblings after a first one, those up to the stop of its segment have points up to the
high one. -/
theorem lt_stop_iff {around : Surroundings} {front siblings : List Atom} {first : Atom}
    {position point : Nat} (later : front.length < position)
    (located : (around.fill (front ++ first :: siblings)).locate? point =
      some (around.path ++ [position]))
    (high : Nat) :
    position < front.length + 1 + reach high
      (around.offset + size front + 1 + first.points) siblings ↔ point ≤ high := by
  obtain ⟨inside, rfl⟩ := Surroundings.point_of_locate? located
  obtain ⟨further, rfl⟩ := Nat.exists_eq_add_of_lt later
  have before : (front ++ first :: siblings).take (front.length + further + 1) =
      front ++ first :: siblings.take further := by
    rw [Nat.add_assoc, List.take_length_add_append, List.take_succ_cons]
  simp only [List.length_append, List.length_cons] at inside
  have reached := lt_reach_iff high (around.offset + size front + 1 + first.points) further siblings
  rw [before, size_append, size]
  omega

/-- There is a segment from each point below the root, and from no other. It takes up consecutive
children of one program, the first of them at its low point, and a later child belongs to it if the
point of that child is not past the high one. Its own atoms in its place give the program back.
Other atoms in its place leave all that lies around it as it is, on every level, and their points
take the place of those of the segment. -/
theorem segment?_maximal (program : Program) (low high : Nat) (positive : 1 ≤ low) :
    ((program.segment? low high).isSome ↔ low ≤ program.size) ∧
    ∀ segment, program.segment? low high = some segment →
      ∃ (around : Surroundings) (front back : List Atom), segment.LiesIn program around front back ∧
        program.descend? segment.parent = some (front ++ segment.atoms ++ back) ∧
        segment.start < segment.stop ∧
        program.locate? low = some (segment.parent ++ [segment.start]) ∧
        program.extract? low = segment.atoms.head? ∧
        (∀ position child, (front ++ segment.atoms ++ back)[position]? = some child → ∃ point,
          program.locate? point = some (segment.parent ++ [position]) ∧
          program.extract? point = some child) ∧
        (∀ position point, segment.start < position →
          program.locate? point = some (segment.parent ++ [position]) →
          (position < segment.stop ↔ point ≤ high)) ∧
        program.splice segment segment.atoms = .ok program ∧
        ∀ replacement, ∃ edited, program.splice segment replacement = .ok edited ∧
          edited = around.fill (front ++ replacement ++ back) ∧
          segment.points ≤ program.points ∧
          edited.points = program.points - segment.points + size replacement := by
  constructor
  · rw [isSome_segment?]
    omega
  intro segment found
  obtain ⟨around, front, first, siblings, back, lies, run, head, rfl, stop⟩ := exists_liesIn found
  have children : front ++ segment.atoms ++ back = front ++ first :: siblings := by
    rw [List.append_assoc, run]
  have whole : program = around.fill (front ++ first :: siblings) :=
    lies.program_eq.trans (by rw [children])
  refine ⟨around, front, back, lies, lies.descend?_eq, ?_, ?_, ?_, ?_, ?_, ?_, ?_⟩
  · rw [lies.start_eq, stop]
    omega
  · rw [lies.parent_eq, lies.start_eq, whole]
    exact around.locate?_fill front siblings first
  · rw [head, whole]
    exact around.extract?_fill front siblings first
  · intro position child present
    rw [lies.parent_eq, lies.program_eq]
    exact ⟨_, around.locate?_member present⟩
  · intro position point later located
    rw [lies.start_eq] at later
    rw [lies.parent_eq, whole] at located
    rw [stop]
    exact lt_stop_iff later located high
  · rw [lies.splice_eq, ← lies.program_eq]
  · intro replacement
    obtain ⟨within, points⟩ := lies.points_eq replacement
    exact ⟨_, lies.splice_eq replacement, rfl, within, points⟩

/-- A segment inside a nested program, with its high point inside the second of its atoms, and the
sibling that it leaves out. -/
theorem segment?_maximal_nested :
    let program : Program :=
      [.integer 1, .program [.name "x", .program [.integer 2, .integer 3], .integer 4], .integer 5]
    let run : List Atom := [.name "x", .program [.integer 2, .integer 3]]
    1 ≤ 3 ∧ ∃ segment, program.segment? 3 5 = some segment ∧ segment.atoms = run ∧
      program.locate? 7 = some (segment.parent ++ [2]) ∧ ¬ 2 < segment.stop ∧
      program.splice segment run = .ok program ∧
      ∃ edited, program.splice segment [.boolean true] = .ok edited ∧ edited.points = 6 := by
  intro program run
  obtain ⟨present, exact⟩ := program.segment?_maximal 3 5 (by decide)
  obtain ⟨segment, found⟩ := Option.isSome_iff_exists.mp (present.mpr (by decide))
  obtain ⟨around, front, back, lies, -, -, -, -, -, belongs, same, spliced⟩ := exact segment found
  obtain rfl : ⟨[1], 0, 2, run⟩ = segment := Option.some.inj found
  obtain ⟨edited, done, -, -, points⟩ := spliced [.boolean true]
  have left : ¬ 2 < 2 := mt (belongs 2 7 (by decide) rfl).mp (by decide)
  exact ⟨by decide, _, found, rfl, rfl, left, same, edited, done, points⟩

end Program

end PushLang
