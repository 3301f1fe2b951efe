import PushLang.Program.Path

/-! Segments: runs of siblings, addressed by two points. A segment starts at its low point and takes
in every following sibling that starts at or before its high point. -/

namespace PushLang.Program

/-- A run of children of one program. -/
structure Segment where
  /-- The path to the program that holds the run. -/
  parent : List Nat
  /-- The position of its first atom there. -/
  start : Nat
  /-- The position after its last atom. -/
  stop : Nat
  atoms : List Atom

/-- The points that the atoms of a segment take up. -/
def Segment.points (segment : Segment) : Nat := size segment.atoms

/-- How many of the following siblings start at or before a point, the first of them starting at
`next`. -/
def reach (high : Nat) : Nat → List Atom → Nat
  | _, [] => 0
  | next, atom :: rest => if next ≤ high then reach high (next + atom.points) rest + 1 else 0

/-- The segment between two points; there is none at the root or after the last point. -/
def segment? (program : Program) (low high : Nat) : Option Segment := do
  let path ← program.locate? low
  let start ← path.getLast?
  let siblings ← program.descend? path.dropLast
  let first ← siblings[start]?
  let following := reach high (low + first.points) (siblings.drop (start + 1))
  return ⟨path.dropLast, start, start + 1 + following, (siblings.drop start).take (following + 1)⟩

/-- The program with some atoms in place of a segment. -/
def splice (program : Program) (segment : Segment) (replacement : List Atom) :
    Except Fault Program :=
  spliceAt segment.start segment.stop replacement segment.parent program

end PushLang.Program
