import PushLang.Atom

namespace PushLang

mutual

/-- The atoms at the points of an atom, itself first. -/
def Atom.preorder : Atom → List Atom
  | .program body => .program body :: Program.preorder body
  | leaf => [leaf]

/-- The atoms at the points of a program below its root. -/
def Program.preorder : Program → List Atom
  | [] => []
  | atom :: rest => atom.preorder ++ Program.preorder rest

end

namespace Program

/-- The leaves of a program, from left to right. -/
def leaves (program : Program) : List Atom := program.preorder.filter fun atom => !atom.isProgram

/-- How many of the points below the root are nested programs. -/
def nestedPoints (program : Program) : Nat := program.preorder.countP Atom.isProgram

end Program

/-- A program is empty, or starts with a leaf or with a nested program. -/
@[elab_as_elim]
theorem Program.induction {motive : Program → Prop} (nil : motive [])
    (leaf : ∀ atom rest, atom.isProgram = false → motive rest → motive (atom :: rest))
    (nested : ∀ body rest, motive body → motive rest → motive (.program body :: rest)) :
    ∀ program, motive program
  | [] => nil
  | .program body :: rest =>
    nested body rest (Program.induction nil leaf nested body)
      (Program.induction nil leaf nested rest)
  | .integer _ :: rest | .float _ :: rest | .boolean _ :: rest | .name _ :: rest =>
    leaf _ rest rfl (Program.induction nil leaf nested rest)

theorem Atom.preorder_leaf {atom : Atom} (leaf : atom.isProgram = false) :
    atom.preorder = [atom] := by
  cases atom with
  | program body => cases leaf
  | integer _ | float _ | boolean _ | name _ => simp [Atom.preorder]

theorem Atom.points_leaf {atom : Atom} (leaf : atom.isProgram = false) : atom.points = 1 := by
  cases atom with
  | program body => cases leaf
  | integer _ | float _ | boolean _ | name _ => simp [Atom.points]

theorem Atom.points_program (body : Program) : (Atom.program body).points = body.points := by
  rw [Atom.points, Program.points]

theorem Atom.points_pos (atom : Atom) : 0 < atom.points := by
  cases atom <;> simp [Atom.points]

theorem Atom.exists_preorder_eq (atom : Atom) : ∃ inner, atom.preorder = atom :: inner := by
  cases atom <;> simp [Atom.preorder]

namespace Program

@[simp] theorem preorder_nil : preorder [] = [] := by simp [preorder]

@[simp] theorem preorder_cons (atom : Atom) (rest : List Atom) :
    preorder (atom :: rest) = atom.preorder ++ preorder rest := by simp [preorder]

@[simp] theorem preorder_append (front back : List Atom) :
    preorder (front ++ back) = preorder front ++ preorder back := by
  induction front with
  | nil => simp
  | cons atom front ih => simp [ih]

@[simp] theorem leaves_nil : leaves [] = [] := by simp [leaves]

@[simp] theorem leaves_append (front back : List Atom) :
    leaves (front ++ back) = leaves front ++ leaves back := by
  simp [leaves]

theorem leaves_replicate_succ (count : Nat) (body : Atom) :
    leaves (List.replicate (count + 1) body) =
      leaves [body] ++ leaves (List.replicate count body) := by
  rw [List.replicate_succ, ← leaves_append]
  rfl

theorem leaves_leaf {atom : Atom} (leaf : atom.isProgram = false) (rest : List Atom) :
    leaves (atom :: rest) = atom :: leaves rest := by
  simp [leaves, Atom.preorder_leaf leaf, leaf]

@[simp] theorem leaves_nested (body : Program) (rest : List Atom) :
    leaves (.program body :: rest) = leaves body ++ leaves rest := by
  simp [leaves, Atom.preorder, Atom.isProgram]

theorem forall_leaves_leaf {holds : Atom → Prop} {atom : Atom} (leaf : atom.isProgram = false)
    (rest : List Atom) :
    (∀ found ∈ leaves (atom :: rest), holds found) ↔
      holds atom ∧ ∀ found ∈ leaves rest, holds found := by
  rw [leaves_leaf leaf, List.forall_mem_cons]

theorem forall_leaves_nested {holds : Atom → Prop} (body : Program) (rest : List Atom) :
    (∀ found ∈ leaves (.program body :: rest), holds found) ↔
      (∀ found ∈ leaves body, holds found) ∧ ∀ found ∈ leaves rest, holds found := by
  rw [leaves_nested, List.forall_mem_append]

/-- Parentheses around the last atoms of a program leave its leaves as they are. -/
theorem leaves_append_nested (front : List Atom) (body : Program) :
    leaves (front ++ [.program body]) = leaves (front ++ body) := by simp

theorem forall_leaves_iff {holds : Atom → Prop} (program : Program) :
    (∀ leaf ∈ leaves program, holds leaf) ↔
      ∀ atom ∈ program, ∀ leaf ∈ leaves [atom], holds leaf := by
  induction program with
  | nil => simp
  | cons atom rest ih =>
    rw [List.forall_mem_cons, ← ih, ← List.forall_mem_append, ← leaves_append,
      List.singleton_append]

@[simp] theorem nestedPoints_nil : nestedPoints [] = 0 := by simp [nestedPoints]

@[simp] theorem nestedPoints_append (front back : List Atom) :
    nestedPoints (front ++ back) = nestedPoints front + nestedPoints back := by
  simp [nestedPoints]

theorem nestedPoints_leaf {atom : Atom} (leaf : atom.isProgram = false) (rest : List Atom) :
    nestedPoints (atom :: rest) = nestedPoints rest := by
  simp [nestedPoints, Atom.preorder_leaf leaf, leaf]

@[simp] theorem nestedPoints_nested (body : Program) (rest : List Atom) :
    nestedPoints (.program body :: rest) = nestedPoints body + nestedPoints rest + 1 := by
  simp only [nestedPoints, preorder_cons, Atom.preorder, Atom.isProgram, List.cons_append,
    List.countP_cons, List.countP_append, if_true]

@[simp] theorem size_append (front back : List Atom) :
    size (front ++ back) = size front + size back := by
  induction front with
  | nil => simp [size]
  | cons atom front ih => simp [size, ih, Nat.add_assoc]

theorem size_replicate (count : Nat) (atom : Atom) :
    size (List.replicate count atom) = count * atom.points := by
  induction count with
  | zero => simp [size]
  | succ count ih => rw [List.replicate_succ, size, ih, Nat.succ_mul, Nat.add_comm]

theorem points_le_size_of_mem {program : Program} {atom : Atom} (member : atom ∈ program) :
    atom.points ≤ program.size := by
  obtain ⟨front, back, rfl⟩ := List.append_of_mem member
  simp only [size_append, size]
  omega

theorem length_preorder (program : Program) : program.preorder.length = program.size := by
  induction program using Program.induction with
  | nil => simp [size]
  | leaf atom rest leaf ih =>
    simp [size, Atom.preorder_leaf leaf, Atom.points_leaf leaf, ih, Nat.add_comm]
  | nested body rest inner ih =>
    simp only [preorder_cons, Atom.preorder, List.length_append, List.length_cons, inner, ih, size,
      Atom.points]

end Program

end PushLang
