import PushLang.Builtin.Effect
import PushLang.Proofs.Safety.Checked

namespace PushLang.Checked

variable {ρ : Type} [RandomSource ρ]

/-- How many integers a random one is drawn from. -/
def integerSpan (config : Config) : Int :=
  max 1 (min (config.maxInteger.toInt - config.minInteger.toInt) Int32.maxValue.toInt)

def randomInteger (config : Config) : Checked ρ Int32 := do
  let drawn ← drawBelow (integerSpan config).toNat
  let offset := Int32.ofNat drawn
  let offset ← if 0 < config.integerStep then subtractInteger offset (offset % config.integerStep)
    else pure offset
  return offset + config.minInteger

/-- The next size taken off what remains: a drawn one, unless a single point or a single part
remains. -/
def nextSize (remaining parts : Nat) : Checked ρ Nat :=
  if remaining < 2 then pure 1 else if parts ≤ 1 then pure remaining
  else (· + 1) <$> drawBelow remaining

def splitWithin : Nat → Nat → Nat → Checked ρ (List Nat)
  | 0, remaining, _ => if remaining = 0 then pure [] else throw .cutOff
  | steps + 1, remaining, parts =>
    if remaining = 0 then pure []
    else do
      let size ← nextSize remaining parts
      let left ← subtract remaining size
      let sizes ← splitWithin steps left (parts - 1)
      return size :: sizes

def swapEntries (entries : List Nat) (i j : Nat) : Checked ρ (List Nat) := do
  let a ← entry entries i
  let b ← entry entries j
  return (entries.set i b).set j a

def shuffleFrom (i : Nat) : Nat → List Nat → Checked ρ (List Nat)
  | 0, entries => pure entries
  | count + 1, entries => do
    let j ← drawBelow entries.length
    let entries ← swapEntries entries i j
    shuffleFrom (i + 1) count entries

def decompose (points parts : Nat) : Checked ρ (List Nat) := do
  let sizes ← splitWithin points points parts
  shuffleFrom 0 sizes.length sizes

variable (env : Environment)

def generate : Generator → Checked ρ Atom
  | .instruction name => pure (.name name)
  | .integerConstant => .integer <$> randomInteger env.config
  | .floatConstant => .float <$> draw (randomFloat env.config)
  | .literal atom => pure atom

def randomAtom : Checked ρ Atom := do
  if env.eligible.isEmpty then throw (.error
    (.config "no instructions are eligible for random code"))
  else
    let index ← drawBelow env.eligible.length
    let generator ← entry env.eligible index
    generate env generator

def randomAtoms : Nat → Checked ρ (List Atom)
  | 0 => pure []
  | count + 1 => do
    let atom ← randomAtom env
    let rest ← randomAtoms count
    return atom :: rest

def randomPart (nested : Nat → Checked ρ Program) (size : Nat) : Checked ρ (List Atom) :=
  if size = 1 then randomAtoms env 1
  else if env.config.flatCode then randomAtoms env size
  else do
    let body ← nested size
    return [Atom.program body]

def randomParts (nested : Nat → Checked ρ Program) : List Nat → Checked ρ (List Atom)
  | [] => pure []
  | size :: sizes => do
    let atoms ← randomPart env nested size
    let rest ← randomParts nested sizes
    return atoms ++ rest

def randomCodeWithin : Nat → Nat → Checked ρ Program
  | 0, size => if size = 0 then pure [] else throw .cutOff
  | depth + 1, size => do
    let sizes ← decompose (size - 1) (size - 1)
    randomParts env (randomCodeWithin depth) sizes

def boundedCode (requested : Int32) : Checked ρ Program := do
  let limit := min requested.toInt.natAbs env.config.maxRandomCodeSize
  let size ← if 0 < limit then (· + 2) <$> drawBelow limit else pure 2
  randomCodeWithin env size size

omit [RandomSource ρ] in
theorem subtractInteger_remainder {offset : Int32} (natural : 0 ≤ offset.toInt) (step : Int32) :
    (subtractInteger offset (offset % step) : Checked ρ Int32) = pure (offset - offset % step) := by
  have remainder : (offset % step).toInt = offset.toInt.tmod step.toInt :=
    Int32.toInt_mod offset step
  have nonnegative := Int.tmod_nonneg step.toInt natural
  have small := Nat.mod_le offset.toInt.natAbs step.toInt.natAbs
  rw [← Int.natAbs_tmod] at small
  have high := offset.toInt_lt
  exact subtractInteger_eq (by omega) (by omega)

theorem randomInteger_yields (config : Config) :
    (randomInteger config : Checked ρ Int32).Yields (PushLang.randomInteger config) := by
  intro source
  have span : 0 < (integerSpan config).toNat ∧ (integerSpan config).toNat < 2 ^ 31 := by
    have most : Int32.maxValue.toInt = 2147483647 := by decide
    unfold integerSpan
    omega
  have drawn := Yields.drawBelow span.1 source
  have inside := RandomSource.below_lt _ source span.1
  have natural : 0 ≤ (Int32.ofNat (below (integerSpan config).toNat source).1).toInt := by
    rw [Int32.toInt_ofNat_of_lt (Nat.lt_trans inside span.2)]
    exact Int.natCast_nonneg _
  change _ = EStateM.Result.ok ((if 0 < config.integerStep then _ else _) + config.minInteger) _
  simp only [randomInteger, bind_apply, drawn]
  split
  · rw [subtractInteger_remainder natural]
    rfl
  · rfl

theorem nextSize_last {remaining parts : Nat} (positive : 0 < remaining)
    (last : remaining = 1 ∨ parts ≤ 1) :
    (nextSize remaining parts : Checked ρ Nat) = pure remaining := by
  unfold nextSize
  split
  · rw [show remaining = 1 by omega]
  · rw [if_pos (by omega)]

theorem nextSize_drawn {remaining parts : Nat} (several : ¬ (remaining = 1 ∨ parts ≤ 1))
    {source : ρ} (positive : 0 < remaining) :
    nextSize remaining parts source =
      .ok ((below remaining source).1 + 1) (below remaining source).2 := by
  obtain ⟨single, few⟩ := not_or.mp several
  rw [nextSize, if_neg (by omega), if_neg few, map_apply, Yields.drawBelow positive]

theorem splitWithin_zero (steps parts : Nat) :
    (splitWithin steps 0 parts : Checked ρ (List Nat)) = pure [] := by
  cases steps <;> rfl

/-- Sizes are taken off what remains, at least one point each time, so that nothing is left in the
end. -/
theorem splitWithin_yields (steps remaining parts : Nat) (enough : remaining ≤ steps) :
    (splitWithin steps remaining parts : Checked ρ (List Nat)).Yields
      (PushLang.splitWithin steps remaining parts) := by
  induction steps generalizing remaining parts with
  | zero =>
    obtain rfl : remaining = 0 := Nat.le_zero.mp enough
    exact fun source => rfl
  | succ steps ih =>
    intro source
    rcases Nat.eq_zero_or_pos remaining with rfl | positive
    · rfl
    have present : ¬ remaining = 0 := Nat.ne_of_gt positive
    by_cases last : remaining = 1 ∨ parts ≤ 1
    · simp only [splitWithin, PushLang.splitWithin, if_neg present, if_pos last,
        nextSize_last positive last, bind_apply, pure_apply, subtract_eq (Nat.le_refl _),
        Nat.sub_self, splitWithin_zero]
    · have inside := RandomSource.below_lt remaining source positive
      have later := ih (remaining - ((below remaining source).1 + 1)) (parts - 1) (by omega)
        (below remaining source).2
      simp only [splitWithin, PushLang.splitWithin, if_neg present, if_neg last,
        nextSize_drawn last positive, bind_apply, pure_apply,
        subtract_eq (Nat.succ_le_of_lt inside), later]

theorem le_of_mem_splitWithin (steps remaining parts : Nat) (source : ρ) :
    ∀ size ∈ (PushLang.splitWithin steps remaining parts source).1, size ≤ remaining := by
  induction steps generalizing remaining parts source with
  | zero => simp [PushLang.splitWithin]
  | succ steps ih =>
    simp only [PushLang.splitWithin]
    split
    · simp
    · split
      · simp
      · rename_i several
        have inside := RandomSource.below_lt remaining source (by omega)
        intro size member
        rcases List.mem_cons.mp member with rfl | later
        · exact inside
        · exact Nat.le_trans (ih _ _ _ size later) (Nat.sub_le _ _)

omit [RandomSource ρ] in
theorem swapEntries_eq {entries : List Nat} {i j : Nat} (first : i < entries.length)
    (second : j < entries.length) :
    (swapEntries entries i j : Checked ρ (List Nat)) = pure (PushLang.swapEntries entries i j) := by
  have foundFirst := List.getElem?_eq_getElem first
  have foundSecond := List.getElem?_eq_getElem second
  simp only [swapEntries, PushLang.swapEntries, entry_eq foundFirst, entry_eq foundSecond,
    foundFirst, foundSecond, pure_bind]

theorem swapEntries_perm (entries : List Nat) (i j : Nat) :
    (PushLang.swapEntries entries i j).Perm entries := by
  unfold PushLang.swapEntries
  split
  · rename_i a b first second
    obtain ⟨insideFirst, rfl⟩ := List.getElem?_eq_some_iff.mp first
    obtain ⟨insideSecond, rfl⟩ := List.getElem?_eq_some_iff.mp second
    exact List.set_set_perm insideFirst insideSecond
  · exact .refl _

theorem shuffleFrom_perm (i count : Nat) (entries : List Nat) (source : ρ) :
    (PushLang.shuffleFrom i count entries source).1.Perm entries := by
  induction count generalizing i entries source with
  | zero => exact .refl _
  | succ count ih => exact (ih _ _ _).trans (swapEntries_perm entries i _)

theorem shuffleFrom_yields (i count : Nat) (entries : List Nat)
    (inside : i + count ≤ entries.length) :
    (shuffleFrom i count entries : Checked ρ (List Nat)).Yields
      (PushLang.shuffleFrom i count entries) := by
  induction count generalizing i entries with
  | zero => exact fun source => rfl
  | succ count ih =>
    intro source
    have positive : 0 < entries.length := by omega
    have drawn := Yields.drawBelow positive source
    have partner := RandomSource.below_lt _ source positive
    have same := (swapEntries_perm entries i (below entries.length source).1).length_eq
    have later :=
      ih (i + 1) (PushLang.swapEntries entries i (below entries.length source).1) (by omega)
      (below entries.length source).2
    simp only [shuffleFrom, PushLang.shuffleFrom, bind_apply, drawn,
      swapEntries_eq (show i < entries.length by omega) partner, pure_apply, later]

theorem decompose_yields (points parts : Nat) :
    (decompose points parts : Checked ρ (List Nat)).Yields (PushLang.decompose points parts) := by
  intro source
  have split := splitWithin_yields points points parts (Nat.le_refl _) source
  have shuffled := shuffleFrom_yields 0 _ (PushLang.splitWithin points points parts source).1
    (Nat.le_of_eq (Nat.zero_add _)) (PushLang.splitWithin points points parts source).2
  simp only [decompose, PushLang.decompose, bind_apply, split, shuffled]

theorem le_of_mem_decompose (points parts : Nat) (source : ρ) :
    ∀ size ∈ (PushLang.decompose points parts source).1, size ≤ points := by
  intro size member
  exact le_of_mem_splitWithin points points parts source size
    ((shuffleFrom_perm _ _ _ _).mem_iff.mp member)

theorem generate_yields (generator : Generator) :
    (generate env generator : Checked ρ Atom).Yields fun source =>
      generator.generate env.config source := by
  intro source
  cases generator with
  | instruction name | literal atom | floatConstant => rfl
  | integerConstant =>
    simp only [generate, map_apply, randomInteger_yields env.config source]
    rfl

variable {env}

theorem randomAtom_passes (eligible : env.eligible ≠ []) :
    (randomAtom env : Checked ρ Atom).Passes env.randomAtom := by
  intro source
  have positive : 0 < env.eligible.length := List.length_pos_iff.mpr eligible
  have present : env.eligible.isEmpty = false := List.isEmpty_eq_false_iff.mpr eligible
  have inside := RandomSource.below_lt _ source positive
  have drawn := Yields.drawBelow positive source
  obtain ⟨generator, found⟩ :
      ∃ generator, env.eligible[(below env.eligible.length source).1]? = some generator :=
    ⟨_, List.getElem?_eq_getElem inside⟩
  obtain ⟨atom, rest, generated⟩ : ∃ atom rest,
      generator.generate env.config (below env.eligible.length source).2 = (atom, rest) :=
      ⟨_, _, rfl⟩
  refine ⟨atom, rest, ?_, ?_⟩
  · simp only [Environment.randomAtom, present, Bool.false_eq_true, if_false, found, generated]
  · simp only [randomAtom, present, Bool.false_eq_true, if_false, bind_apply, drawn, entry_eq found,
      pure_apply, generate_yields env generator _, generated]

theorem randomAtoms_passes (eligible : env.eligible ≠ []) (count : Nat) :
    (randomAtoms env count : Checked ρ (List Atom)).Passes (env.randomAtoms count) := by
  induction count with
  | zero => exact .pure []
  | succ count ih =>
    exact (randomAtom_passes eligible).bind fun atom => ih.bind fun rest => .pure (atom :: rest)

theorem randomPart_passes (eligible : env.eligible ≠ []) {nested : Nat → Checked ρ Program}
    {plain : Nat → Draw ρ Program} {size : Nat} (inner : (nested size).Passes (plain size)) :
    (randomPart env nested size).Passes (env.randomPart plain size) := by
  unfold randomPart Environment.randomPart
  split
  · exact randomAtoms_passes eligible 1
  · split
    · exact randomAtoms_passes eligible size
    · exact inner.bind fun body => .pure [Atom.program body]

theorem randomParts_passes (eligible : env.eligible ≠ []) {nested : Nat → Checked ρ Program}
    {plain : Nat → Draw ρ Program} (sizes : List Nat)
    (inner : ∀ size ∈ sizes, (nested size).Passes (plain size)) :
    (randomParts env nested sizes).Passes (env.randomParts plain sizes) := by
  induction sizes with
  | nil => exact .pure []
  | cons size sizes ih =>
    obtain ⟨first, later⟩ := List.forall_mem_cons.mp inner
    exact (randomPart_passes eligible first).bind fun atoms => (ih later).bind fun rest =>
      .pure (atoms ++ rest)

/-- A size bounds the depth of the nested programs made for it. -/
theorem randomCodeWithin_passes (eligible : env.eligible ≠ []) (depth size : Nat)
    (enough : size ≤ depth) :
    (randomCodeWithin env depth size : Checked ρ Program).Passes
      (env.randomCodeWithin depth size) := by
  induction depth generalizing size with
  | zero =>
    obtain rfl : size = 0 := Nat.le_zero.mp enough
    exact .pure []
  | succ depth ih =>
    intro source
    -- Each part is smaller than the whole, so that one level less is enough for it.
    have sizes := decompose_yields (size - 1) (size - 1) source
    have smaller := le_of_mem_decompose (size - 1) (size - 1) source
    obtain ⟨program, rest, plain, checked⟩ :=
      randomParts_passes eligible (PushLang.decompose (size - 1) (size - 1) source).1
      (fun part member => ih part (by have := smaller part member; omega))
        (PushLang.decompose (size - 1) (size - 1) source).2
    refine ⟨program, rest, plain, ?_⟩
    simp only [randomCodeWithin, bind_apply, sizes, checked]

theorem boundedCode_passes (eligible : env.eligible ≠ []) (requested : Int32) :
    (boundedCode env requested : Checked ρ Program).Passes (env.boundedCode requested) := by
  intro source
  have made := fun size => randomCodeWithin_passes (ρ := ρ) eligible size size (Nat.le_refl size)
  by_cases positive : 0 < min requested.toInt.natAbs env.config.maxRandomCodeSize
  · have drawn := Yields.drawBelow positive source
    obtain ⟨code, rest, plain, checked⟩ := made ((below _ source).1 + 2) (below _ source).2
    refine ⟨code, rest, ?_, ?_⟩
    · simp only [Environment.boundedCode, Environment.randomCode, if_pos positive]
      exact plain
    · simp only [boundedCode, if_pos positive, bind_apply, map_apply, drawn, checked]
  · obtain ⟨code, rest, plain, checked⟩ := made 2 source
    refine ⟨code, rest, ?_, ?_⟩
    · simp only [Environment.boundedCode, Environment.randomCode, if_neg positive, plain]
    · simp only [boundedCode, if_neg positive, bind_apply, pure_apply, checked]

end PushLang.Checked
