import PushLang.Proofs.Program.Surroundings

/-! Points have one numbering. The walk over a program, the paths to its points and its segments all
follow the list of its points and end where it ends. -/

namespace PushLang.Program

theorem take_start (program : Program) (more : Nat) :
    (Walk.start program).take (program.size + more) =
      (List.range' 1 program.size).zip program.preorder := by
  have lengths : (List.range' 1 program.size).length = program.preorder.length := by
    rw [List.length_range', length_preorder]
  have ahead : Walk.remaining [program] = program.preorder ++ [] := by simp [Walk.remaining]
  rw [Walk.take_eq, Walk.start, ahead, Nat.zero_add, ← List.range'_append_1,
    List.zip_append lengths, List.zip_nil_right, List.append_nil]

theorem map_fst_indexedPoints (program : Program) :
    program.indexedPoints.map Prod.fst = List.range' 1 program.size := by
  refine (congrArg (List.map Prod.fst) (take_start program 0)).trans
    (List.map_fst_zip (Nat.le_of_eq ?_))
  rw [List.length_range', length_preorder]

/-- The root is not among the points below it. -/
theorem index_of_mem_indexedPoints {program : Program} {point : Nat × Atom}
    (member : point ∈ program.indexedPoints) :
    1 ≤ point.1 ∧ point.1 ≤ program.size := by
  have numbered : point.1 ∈ program.indexedPoints.map Prod.fst := List.mem_map_of_mem member
  rw [map_fst_indexedPoints, List.mem_range'_1] at numbered
  omega

theorem map_snd_indexedPoints (program : Program) :
    program.indexedPoints.map Prod.snd = program.preorder := by
  refine (congrArg (List.map Prod.snd) (take_start program 0)).trans
    (List.map_snd_zip (Nat.le_of_eq ?_))
  rw [List.length_range', length_preorder]

theorem isSome_getElem?_preorder (program : Program) (index : Nat) :
    program.preorder[index]?.isSome ↔ index + 1 ≤ program.size := by
  rw [isSome_getElem?, length_preorder]
  exact Iff.rfl

theorem isSome_extract? (program : Program) (index : Nat) :
    (program.extract? index).isSome ↔ index ≤ program.size := by
  cases index with
  | zero => simp [extract?]
  | succ index => rw [extract?_succ, isSome_getElem?_preorder]

theorem locate?_of_lt {program : Program} {index : Nat} (outside : program.size < index) :
    program.locate? index = none := by
  cases index with
  | zero => exact absurd outside (Nat.not_lt_zero _)
  | succ index =>
    rw [locate?_succ]
    exact locateAmong_eq_none program 0 index (Nat.le_of_lt_succ outside)

theorem isSome_locate? (program : Program) (index : Nat) :
    (program.locate? index).isSome ↔ index ≤ program.size := by
  rcases Nat.lt_or_ge program.size index with outside | inside
  · simpa [locate?_of_lt outside] using outside
  · cases index with
    | zero => simp [locate?_zero]
    | succ index =>
      obtain ⟨around, front, atom, back, -, -, located⟩ := program.exists_locate? index inside
      simpa [located] using inside

/-- An edit at a point that has a path never misses its range. -/
theorem isSome_replace? (program : Program) (index : Nat) (replacement : Atom) :
    (program.replace? index replacement).isSome ↔ index ≤ program.size := by
  rcases Nat.lt_or_ge program.size index with outside | inside
  · simpa [replace?, locate?_of_lt outside] using outside
  · cases index with
    | zero => simp [replace?, locate?_zero]
    | succ index =>
      obtain ⟨around, front, atom, back, rfl, -, located⟩ := program.exists_locate? index inside
      rw [replace?_of_locate? located]
      exact iff_of_true rfl inside

theorem reach_of_lt {high next : Nat} (beyond : high < next) (siblings : List Atom) :
    reach high next siblings = 0 := by
  cases siblings with
  | nil => rfl
  | cons atom rest => rw [reach, if_neg (Nat.not_le.mpr beyond)]

/-- A segment from a point to itself holds nothing but the atom there. -/
theorem map_atoms_segment?_self (program : Program) (index : Nat) :
    (program.segment? (index + 1) (index + 1)).map Segment.atoms =
      program.preorder[index]?.map fun atom => [atom] := by
  by_cases inside : index < program.size
  · obtain ⟨around, front, atom, back, rfl, point, located⟩ := program.exists_locate? index inside
    have own : (around.fill (front ++ atom :: back)).preorder[index]? = some atom := by
      rw [← extract?_succ, point, around.extract?_fill]
    have beyond : index + 1 < index + 1 + atom.points := Nat.lt_add_of_pos_right atom.points_pos
    rw [segment?_of_locate? located, own, reach_of_lt beyond]
    rfl
  · have outside : program.size ≤ index := Nat.not_lt.mp inside
    have absent : program.preorder[index]? = none :=
      List.getElem?_eq_none (by rwa [length_preorder])
    rw [absent, segment?, locate?_of_lt (Nat.lt_succ_of_le outside)]
    rfl

/-- The walk numbers the points from one on in the order of their list and ends with the last one.
Points up to the size, and segments from such a point to itself unless it is the root, are there,
and no others; they are what the walk meets at their number. -/
theorem points_agree (program : Program) :
    program.indexedPoints.map Prod.fst = List.range' 1 program.size ∧
    program.indexedPoints.map Prod.snd = program.preorder ∧
    (∀ more, (Walk.start program).take (program.size + more) = program.indexedPoints) ∧
    (∀ index replacement,
      ((program.locate? index).isSome ↔ index ≤ program.size) ∧
      ((program.extract? index).isSome ↔ index ≤ program.size) ∧
      ((program.pointsAt? index).isSome ↔ index ≤ program.size) ∧
      ((program.replace? index replacement).isSome ↔ index ≤ program.size) ∧
      ((program.segment? index index).isSome ↔ 1 ≤ index ∧ index ≤ program.size)) ∧
    program.extract? 0 = some (.program program) ∧
    ∀ index,
      program.extract? (index + 1) = program.indexedPoints[index]?.map Prod.snd ∧
      program.pointsAt? (index + 1) =
        program.indexedPoints[index]?.map (fun point => point.2.points) ∧
      (program.segment? (index + 1) (index + 1)).map Segment.atoms =
        program.indexedPoints[index]?.map (fun point => [point.2]) := by
  have met (index : Nat) :
      program.indexedPoints[index]?.map Prod.snd = program.preorder[index]? := by
    rw [← List.getElem?_map, map_snd_indexedPoints]
  refine ⟨map_fst_indexedPoints program, map_snd_indexedPoints program, ?_, ?_, rfl, ?_⟩
  · intro more
    rw [take_start]
    exact (take_start program 0).symm
  · intro index replacement
    refine ⟨program.isSome_locate? index, program.isSome_extract? index, ?_,
      program.isSome_replace? index replacement, ?_⟩
    · rw [pointsAt?_eq, Option.isSome_map, isSome_extract?]
    · cases index with
      | zero => simp [segment?, locate?_zero]
      | succ index =>
        rw [← Option.isSome_map, map_atoms_segment?_self, Option.isSome_map,
          isSome_getElem?_preorder]
        omega
  · intro index
    refine ⟨?_, ?_, ?_⟩
    · rw [extract?_succ, met]
    · rw [pointsAt?_eq, extract?_succ, ← met, Option.map_map]
      rfl
    · rw [map_atoms_segment?_self, ← met, Option.map_map]
      rfl

end PushLang.Program
