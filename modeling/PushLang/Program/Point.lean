import PushLang.Atom

/-! Points of a program. Point 0 is the root, and the others are the atoms below it in the order in
which their printed forms start. A walk visits them one at a time with the siblings still ahead on
each level. -/

namespace PushLang.Program

/-- A walk under way: the index of the last point visited, and for every open level the siblings not
yet visited, innermost level first. -/
structure Walk where
  index : Nat
  levels : List (List Atom)

namespace Walk

/-- The walk before the first point below the root. -/
def start (program : Program) : Walk := ⟨0, [program]⟩

/-- The levels inside an atom just visited. -/
def enter : Atom → List (List Atom) → List (List Atom)
  | .program body, levels => body :: levels
  | _, levels => levels

/-- The next atom and the levels after it; finished levels are left behind. -/
def advance : List (List Atom) → Option (Atom × List (List Atom))
  | [] => none
  | [] :: outer => advance outer
  | (atom :: siblings) :: outer => some (atom, enter atom (siblings :: outer))

/-- The next point with its index. -/
def next? (walk : Walk) : Option ((Nat × Atom) × Walk) :=
  (advance walk.levels).map fun (atom, levels) => ((walk.index + 1, atom), ⟨walk.index + 1, levels⟩)

/-- The point reached after skipping some. -/
def nth? : Nat → Walk → Option (Nat × Atom)
  | 0, walk => walk.next?.map Prod.fst
  | skipped + 1, walk => walk.next?.bind fun (_, rest) => nth? skipped rest

/-- The next points, at most as many as asked for. -/
def take : Nat → Walk → List (Nat × Atom)
  | 0, _ => []
  | count + 1, walk => match walk.next? with
    | none => []
    | some (point, rest) => point :: take count rest

end Walk

/-- Every point below the root with its index, in order. -/
def indexedPoints (program : Program) : List (Nat × Atom) := (Walk.start program).take program.size

/-- The atom at a point; the root is the program itself. -/
def extract? (program : Program) : Nat → Option Atom
  | 0 => some (.program program)
  | index + 1 => ((Walk.start program).nth? index).map Prod.snd

/-- The points taken up by the atom at a point. -/
def pointsAt? (program : Program) : Nat → Option Nat
  | 0 => some program.points
  | index + 1 => ((Walk.start program).nth? index).map fun (_, atom) => atom.points

end PushLang.Program
