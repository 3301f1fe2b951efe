import PushLang.Program.Point
import PushLang.Proofs.Program.Preorder

namespace PushLang.Program

namespace Walk

/-- The points that a walk has yet to visit. -/
def remaining (levels : List (List Atom)) : List Atom := levels.flatMap Program.preorder

/-- The points after an atom start with those inside it. -/
private theorem cons_remaining_enter (atom : Atom) (levels : List (List Atom)) :
    atom :: remaining (enter atom levels) = atom.preorder ++ remaining levels := by
  cases atom with
  | program body => simp [enter, remaining, Atom.preorder]
  | integer _ | float _ | boolean _ | name _ => simp [enter, Atom.preorder]

theorem remaining_eq (levels : List (List Atom)) :
    remaining levels = match advance levels with
      | none => []
      | some (atom, rest) => atom :: remaining rest := by
  induction levels with
  | nil => rfl
  | cons level outer ih =>
    cases level with
    | nil => simpa [remaining, advance] using ih
    | cons atom siblings =>
      simp only [advance, cons_remaining_enter]
      simp [remaining]

/-- Skipping points leads to the one that stands after them. -/
theorem nth?_eq (skipped : Nat) (walk : Walk) :
    walk.nth? skipped = (remaining walk.levels)[skipped]?.map fun atom =>
      (walk.index + skipped + 1, atom) := by
  induction skipped generalizing walk with
  | zero =>
    rw [nth?, next?, remaining_eq]
    cases advance walk.levels with
    | none => rfl
    | some next => rfl
  | succ skipped ih =>
    rw [nth?, next?, remaining_eq]
    cases advance walk.levels with
    | none => rfl
    | some next =>
      have index : walk.index + 1 + skipped = walk.index + (skipped + 1) := by omega
      simp only [Option.map_some, Option.bind_some, ih, List.getElem?_cons_succ, index]

/-- A walk visits the remaining points one after the other and counts them. -/
theorem take_eq (count : Nat) (walk : Walk) :
    walk.take count = (List.range' (walk.index + 1) count).zip (remaining walk.levels) := by
  induction count generalizing walk with
  | zero => rfl
  | succ count ih =>
    rw [take, next?, remaining_eq, List.range'_succ]
    cases advance walk.levels with
    | none => rfl
    | some next => simp only [Option.map_some, ih, List.zip_cons_cons]

end Walk

theorem extract?_succ (program : Program) (index : Nat) :
    program.extract? (index + 1) = program.preorder[index]? := by
  simp [extract?, Walk.nth?_eq, Walk.start, Walk.remaining, Function.comp_def]

theorem pointsAt?_eq (program : Program) (index : Nat) :
    program.pointsAt? index = (program.extract? index).map Atom.points := by
  cases index with
  | zero => simp [pointsAt?, extract?, points, Atom.points]
  | succ index => simp [pointsAt?, extract?, Function.comp_def]

end PushLang.Program
