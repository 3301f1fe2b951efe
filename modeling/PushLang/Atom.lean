import PushLang.Binary32.Basic

namespace PushLang

/-- One element of a program: a literal, a name, or a nested program. A name stands for the
instruction of that name, and for itself where no instruction has it. -/
inductive Atom where
  | integer (value : Int32)
  | float (value : Binary32)
  | boolean (value : Bool)
  | name (text : String)
  | program (body : List Atom)

instance : Inhabited Atom := ⟨.program []⟩

/-- A program is the sequence of its immediate children. -/
abbrev Program := List Atom

mutual

/-- Two floats are the same atom when their bits agree, so a NaN equals itself and the two zeros
differ. -/
def Atom.decideEq : (a b : Atom) → Decidable (a = b)
  | .integer a, b => match b with
    | .integer b => if h : a = b then isTrue (by rw [h]) else isFalse (by simp [h])
    | .float _ | .boolean _ | .name _ | .program _ => isFalse (by simp)
  | .float a, b => match b with
    | .float b => if h : a = b then isTrue (by rw [h]) else isFalse (by simp [h])
    | .integer _ | .boolean _ | .name _ | .program _ => isFalse (by simp)
  | .boolean a, b => match b with
    | .boolean b => if h : a = b then isTrue (by rw [h]) else isFalse (by simp [h])
    | .integer _ | .float _ | .name _ | .program _ => isFalse (by simp)
  | .name a, b => match b with
    | .name b => if h : a = b then isTrue (by rw [h]) else isFalse (by simp [h])
    | .integer _ | .float _ | .boolean _ | .program _ => isFalse (by simp)
  | .program a, b => match b with
    | .program b => match Program.decideEq a b with
      | isTrue h => isTrue (by rw [h])
      | isFalse h => isFalse (by simp [h])
    | .integer _ | .float _ | .boolean _ | .name _ => isFalse (by simp)

/-- Programs are compared child by child. -/
def Program.decideEq : (a b : Program) → Decidable (a = b)
  | [], [] => isTrue rfl
  | [], _ :: _ => isFalse (by simp)
  | _ :: _, [] => isFalse (by simp)
  | a :: as, b :: bs => match Atom.decideEq a b with
    | isFalse h => isFalse (by simp [h])
    | isTrue h => match Program.decideEq as bs with
      | isTrue hs => isTrue (by rw [h, hs])
      | isFalse hs => isFalse (by simp [hs])

end

instance : DecidableEq Atom := Atom.decideEq

namespace Atom

def isProgram : Atom → Bool
  | .program _ => true
  | _ => false

/-- An atom as a program of its own: the program it holds, or the program of this one atom. -/
def asProgram : Atom → Program
  | .program body => body
  | leaf => [leaf]

end Atom

mutual

/-- The points an atom takes up: one for a leaf, and for a nested program one more than its size. -/
def Atom.points : Atom → Nat
  | .program body => Program.size body + 1
  | _ => 1

/-- The points of a program below its root. -/
def Program.size : Program → Nat
  | [] => 0
  | atom :: rest => atom.points + Program.size rest

end

/-- The points of a program, its root included. -/
def Program.points (program : Program) : Nat := program.size + 1

end PushLang
