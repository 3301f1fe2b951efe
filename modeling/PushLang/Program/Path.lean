import PushLang.Atom
import PushLang.Error

/-! Paths through a program. A path lists child positions from the root down; an edit copies the
programs along it. -/

namespace PushLang

mutual

/-- The path to an atom some points after the first of these siblings, whose positions start at
`position`. -/
def Program.locateAmong (position : Nat) : List Atom → Nat → Option (List Nat)
  | [], _ => none
  | atom :: rest, remaining =>
    if remaining < atom.points then (atom.locateWithin remaining).map (position :: ·)
    else Program.locateAmong (position + 1) rest (remaining - atom.points)

/-- The path below an atom to a point of it, its own being the first. -/
def Atom.locateWithin : Atom → Nat → Option (List Nat)
  | _, 0 => some []
  | .program body, remaining + 1 => Program.locateAmong 0 body remaining
  | _, _ + 1 => none

end

namespace Program

/-- The path to a point; the root has the empty path. -/
def locate? (program : Program) (index : Nat) : Option (List Nat) :=
  (Atom.program program).locateWithin index

/-- The program at the end of a path. -/
def descend? : Program → List Nat → Option Program
  | program, [] => some program
  | program, position :: rest => match program[position]? with
    | some (.program body) => descend? body rest
    | _ => none

/-- Puts some atoms in place of a range of children of the program at the end of a path. A path that
meets a leaf changes nothing; a position or range outside of its program is a fault. -/
def spliceAt (start stop : Nat) (replacement : List Atom) :
    List Nat → Program → Except Fault Program
  | [], program =>
    if start ≤ stop ∧ stop ≤ program.length then
      .ok (program.take start ++ replacement ++ program.drop stop)
    else .error .outOfRange
  | position :: rest, program => match program[position]? with
    | none => .error .outOfRange
    | some (.program body) =>
      (spliceAt start stop replacement rest body).map fun body =>
        program.set position (.program body)
    | some _ => .ok program

/-- The program with the atom at a point replaced, if there is that point. In place of the root, an
atom becomes a program of its own. -/
def replace? (program : Program) (index : Nat) (replacement : Atom) : Option Program :=
  (program.locate? index).bind fun path => match path.getLast? with
    | none => some replacement.asProgram
    | some position =>
      (spliceAt position (position + 1) [replacement] path.dropLast program).toOption

end Program

end PushLang
