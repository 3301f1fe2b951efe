import PushLang.Breeding.SinglePoint
import PushLang.Breeding.TwoPoint
import PushLang.Proofs.Program.Segments
import PushLang.Proofs.Safety.Checked

/-! Points, segments and edits of programs in checked steps. A point or segment that is not there
stops a step, as a position outside of its list does, so that an edit that passes never falls back
to the program it was given. -/

namespace PushLang

/-- Ordered cuts below a bound. -/
structure Cuts.Below (bound : Nat) (cuts : Cuts) : Prop where
  ordered : cuts.low ≤ cuts.high
  high_lt : cuts.high < bound

theorem Cuts.Below.low_lt {bound : Nat} {cuts : Cuts} (inside : cuts.Below bound) :
    cuts.low < bound :=
  Nat.lt_of_le_of_lt inside.ordered inside.high_lt

theorem Cuts.Below.mono {bound larger : Nat} {cuts : Cuts} (inside : cuts.Below bound)
    (more : bound ≤ larger) :
    cuts.Below larger :=
  ⟨inside.ordered, Nat.lt_of_lt_of_le inside.high_lt more⟩

namespace Program

/-- The point after a cut is one of those below the root. -/
def HasCut (program : Program) (cut : Nat) : Prop := cut + 1 ∈ program.indexedPoints.map Prod.fst

theorem hasCut_iff {program : Program} {cut : Nat} : program.HasCut cut ↔ cut < program.size := by
  rw [HasCut, map_fst_indexedPoints, List.mem_range'_1]
  omega

/-- A graft that finds the point to replace and the donor's point. -/
structure Grafts (program : Program) (cut : Nat) (donor : Program) (donorCut : Nat) : Prop where
  point : program.HasCut cut
  donorPoint : donor.HasCut donorCut
  found : ∃ atom, donor.extract? (donorCut + 1) = some atom ∧
    program.replace? (cut + 1) atom = some (program.graft cut donor donorCut)

theorem Grafts.of_lt {program donor : Program} {cut donorCut : Nat} (inside : cut < program.size)
    (donorInside : donorCut < donor.size) : program.Grafts cut donor donorCut := by
  obtain ⟨atom, taken, -⟩ := exists_extract? donorInside
  obtain ⟨edited, replaced⟩ :=
    Option.isSome_iff_exists.mp ((program.isSome_replace? (cut + 1) atom).mpr inside)
  refine ⟨hasCut_iff.mpr inside, hasCut_iff.mpr donorInside, atom, taken, ?_⟩
  simp only [graft, taken, replaced, Option.bind_some, Option.getD_some]

/-- An exchange that finds the segment to replace and the donor's segment. -/
structure Exchanges (program : Program) (cuts : Cuts) (donor : Program) (donorCuts : Cuts) :
    Prop where
  points : program.HasCut cuts.low ∧ program.HasCut cuts.high
  donorPoints : donor.HasCut donorCuts.low ∧ donor.HasCut donorCuts.high
  found : ∃ target taken, program.cutSegment? cuts = some target ∧
    donor.cutSegment? donorCuts = some taken ∧
    program.splice target taken.atoms = .ok (program.exchange cuts donor donorCuts)

theorem exists_cutSegment? {program : Program} {cuts : Cuts} (inside : cuts.Below program.size) :
    ∃ found, program.cutSegment? cuts = some found :=
  Option.isSome_iff_exists.mp ((program.isSome_segment? _ _).mpr
    ⟨Nat.le_add_left 1 cuts.low, inside.low_lt⟩)

theorem Exchanges.of_below {program donor : Program} {cuts donorCuts : Cuts}
    (inside : cuts.Below program.size) (donorInside : donorCuts.Below donor.size) :
    program.Exchanges cuts donor donorCuts := by
  obtain ⟨target, present⟩ := exists_cutSegment? inside
  obtain ⟨taken, donorPresent⟩ := exists_cutSegment? donorInside
  obtain ⟨around, front, -, -, back, lies, -⟩ := exists_liesIn present
  refine ⟨⟨hasCut_iff.mpr inside.low_lt, hasCut_iff.mpr inside.high_lt⟩,
    ⟨hasCut_iff.mpr donorInside.low_lt, hasCut_iff.mpr donorInside.high_lt⟩, target, taken, present,
    donorPresent, ?_⟩
  simp only [exchange, present, donorPresent, lies.splice_eq]
  rfl

end Program

end PushLang

namespace PushLang.Checked

variable {σ α β : Type}

def present : Option α → Checked σ α
  | some value => pure value
  | none => throw (.fault .outOfRange)

/-- What has to come without a fault. -/
def faultless : Except Fault α → Checked σ α
  | .ok value => pure value
  | .error fault => throw (.fault fault)

/-- The entries of a list from one position up to another. -/
def slice (items : List α) (start stop : Nat) : Checked σ (List α) :=
  if start ≤ stop ∧ stop ≤ items.length then pure ((items.drop start).take (stop - start))
  else throw (.fault .outOfRange)

def extract (program : Program) (index : Nat) : Checked σ Atom :=
  if index = 0 then pure (.program program)
  else do
    let skipped ← subtract index 1
    let point ← present ((Program.Walk.start program).nth? skipped)
    return point.2

mutual

def locateAmong (position : Nat) : List Atom → Nat → Checked σ (List Nat)
  | [], _ => throw (.fault .outOfRange)
  | atom :: rest, remaining =>
    if remaining < atom.points then (position :: ·) <$> locateWithin atom remaining
    else do
      let left ← subtract remaining atom.points
      locateAmong (position + 1) rest left

def locateWithin : Atom → Nat → Checked σ (List Nat)
  | _, 0 => pure []
  | .program body, remaining + 1 => do
    let inner ← subtract (remaining + 1) 1
    locateAmong 0 body inner
  | _, _ + 1 => throw (.fault .outOfRange)

end

def locate (program : Program) (index : Nat) : Checked σ (List Nat) :=
  if index = 0 then pure []
  else do
    let remaining ← subtract index 1
    locateAmong 0 program remaining

def segment (program : Program) (low high : Nat) : Checked σ Program.Segment := do
  let path ← locate program low
  let start ← present path.getLast?
  let siblings ← present (program.descend? path.dropLast)
  let first ← entry siblings start
  let stop := start + 1 + Program.reach high (low + first.points) (siblings.drop (start + 1))
  let atoms ← slice siblings start stop
  return ⟨path.dropLast, start, stop, atoms⟩

def replace (program : Program) (index : Nat) (replacement : Atom) : Checked σ Program := do
  let path ← locate program index
  match path.getLast? with
  | none => return replacement.asProgram
  | some position =>
    faultless (Program.spliceAt position (position + 1) [replacement] path.dropLast program)

def graft (program : Program) (cut : Nat) (donor : Program) (donorCut : Nat) :
    Checked σ Program := do
  let atom ← extract donor (donorCut + 1)
  replace program (cut + 1) atom

def exchange (program : Program) (cuts : Cuts) (donor : Program) (donorCuts : Cuts) :
    Checked σ Program := do
  let target ← segment program (cuts.low + 1) (cuts.high + 1)
  let found ← segment donor (donorCuts.low + 1) (donorCuts.high + 1)
  faultless (program.splice target found.atoms)

theorem map_present (change : α → β) (value : Option α) :
    change <$> (present value : Checked σ α) = present (value.map change) := by
  cases value with
  | none => rfl
  | some value => exact map_pure change value

theorem subtract_one (index : Nat) : (subtract (index + 1) 1 : Checked σ Nat) = pure index :=
  subtract_eq (Nat.le_add_left 1 index)

theorem extract_eq {program : Program} {index : Nat} {atom : Atom}
    (found : program.extract? index = some atom) :
    (extract program index : Checked σ Atom) = pure atom := by
  cases index with
  | zero =>
    obtain rfl : .program program = atom := Option.some.inj found
    rfl
  | succ index =>
    obtain ⟨point, met, rfl⟩ := Option.map_eq_some_iff.mp found
    simp only [extract, if_neg (Nat.succ_ne_zero index), subtract_one, pure_bind, met, present]

/-- The differences on the way to a point are never negative, whether there is that point or not. -/
theorem locateAmong_eq (siblings : List Atom) (position remaining : Nat) :
    (locateAmong position siblings remaining : Checked σ (List Nat)) =
      present (Program.locateAmong position siblings remaining) := by
  induction siblings using Program.induction generalizing position remaining with
  | nil => simp only [locateAmong, Program.locateAmong, present]
  | leaf atom rest isLeaf ih =>
    rw [locateAmong, Program.locateAmong]
    split
    · rename_i within
      obtain rfl : remaining = 0 := by rwa [Atom.points_leaf isLeaf, Nat.lt_one_iff] at within
      rw [← map_present, atom.locateWithin_zero]
      cases atom <;> rfl
    · rename_i beyond
      rw [subtract_eq (Nat.not_lt.mp beyond), pure_bind, ih]
  | nested body rest bodyIh ih =>
    rw [locateAmong, Program.locateAmong]
    split
    · rw [← map_present]
      cases remaining with
      | zero => rw [Atom.locateWithin_zero, locateWithin, present]
      | succ inner => rw [Atom.locateWithin_succ, ← bodyIh, locateWithin, subtract_one, pure_bind]
    · rename_i beyond
      rw [subtract_eq (Nat.not_lt.mp beyond), pure_bind, ih]

theorem locate_eq (program : Program) (index : Nat) :
    (locate program index : Checked σ (List Nat)) = present (program.locate? index) := by
  cases index with
  | zero => rw [Program.locate?_zero, locate, if_pos rfl, present]
  | succ index =>
    rw [Program.locate?_succ, locate, if_neg (Nat.succ_ne_zero index), subtract_one,
      pure_bind, locateAmong_eq]

theorem slice_add (items : List α) (start count : Nat) (within : start + count ≤ items.length) :
    (slice items start (start + count) : Checked σ (List α)) =
      pure ((items.drop start).take count) := by
  rw [slice, if_pos ⟨Nat.le_add_right start count, within⟩, Nat.add_sub_cancel_left]

theorem segment_eq {program : Program} {low high : Nat} {found : Program.Segment}
    (present : program.segment? low high = some found) :
    (segment program low high : Checked σ Program.Segment) = pure found := by
  simp only [Program.segment?, Option.bind_eq_bind, Option.bind_eq_some_iff, Option.pure_def,
    Option.some.injEq] at present
  obtain ⟨path, located, start, last, siblings, descended, first, own, rfl⟩ := present
  have inside : start < siblings.length := (List.getElem?_eq_some_iff.mp own).1
  have bound := Program.reach_le_length high (low + first.points) (siblings.drop (start + 1))
  rw [List.length_drop] at bound
  have run := slice_add (σ := σ) siblings start
    (Program.reach high (low + first.points) (siblings.drop (start + 1)) + 1) (by omega)
  rw [Nat.add_comm _ 1, ← Nat.add_assoc] at run
  simp only [segment, locate_eq, located, last, descended, Checked.present, pure_bind, entry_eq own,
    run, Nat.add_comm 1]

theorem replace_eq {program edited : Program} {index : Nat} {replacement : Atom}
    (replaced : program.replace? index replacement = some edited) :
    (replace program index replacement : Checked σ Program) = pure edited := by
  obtain ⟨path, located, changed⟩ := Option.bind_eq_some_iff.mp replaced
  simp only [replace, locate_eq, located, present, pure_bind]
  cases last : path.getLast? with
  | none =>
    rw [last] at changed
    exact congrArg pure (Option.some.inj changed)
  | some position =>
    rw [last] at changed
    cases spliced :
        Program.spliceAt position (position + 1) [replacement] path.dropLast program with
    | error fault => simp [spliced, Except.toOption] at changed
    | ok other =>
      obtain rfl : other = edited := by simpa [spliced, Except.toOption] using changed
      exact congrArg faultless spliced

theorem graft_eq {program donor : Program} {cut donorCut : Nat}
    (grafts : program.Grafts cut donor donorCut) :
    (graft program cut donor donorCut : Checked σ Program) =
      pure (program.graft cut donor donorCut) := by
  obtain ⟨atom, taken, replaced⟩ := grafts.found
  rw [graft, extract_eq taken, pure_bind, replace_eq replaced]

theorem exchange_eq {program donor : Program} {cuts donorCuts : Cuts}
    (exchanges : program.Exchanges cuts donor donorCuts) :
    (exchange program cuts donor donorCuts : Checked σ Program) =
      pure (program.exchange cuts donor donorCuts) := by
  obtain ⟨target, taken, present, donorPresent, spliced⟩ := exchanges.found
  rw [exchange, segment_eq present, pure_bind, segment_eq donorPresent, pure_bind, spliced,
    faultless]

end PushLang.Checked
