import Mathlib.Algebra.GroupWithZero.Nat
import PushLang.Proofs.InstructionSet.Leaves
import PushLang.Proofs.Program.Preorder
import PushLang.Proofs.Safety.Generation
import PushLang.Random.Script

namespace PushLang

variable {ρ α β : Type}

theorem Draw.bind_ok {first : Draw ρ α} {source rest : ρ} {value : α}
    (drawn : first source = .ok value rest) (next : α → Draw ρ β) :
    (first >>= next) source = next value rest := by
  change EStateM.bind first next source = _
  simp only [EStateM.bind, drawn]

theorem Draw.bind_error {first : Draw ρ α} {source rest : ρ} {cause : Error}
    (failed : first source = .error cause rest) (next : α → Draw ρ β) :
    (first >>= next) source = .error cause rest := by
  change EStateM.bind first next source = _
  simp only [EStateM.bind, failed]

/-- A draw that does not fail, and gives something with a property from every source. -/
def Draw.Gives (draw : Draw ρ α) (holds : α → Prop) : Prop :=
  ∀ source, ∃ value rest, draw source = .ok value rest ∧ holds value

namespace Draw.Gives

theorem pure {holds : α → Prop} {value : α} (own : holds value) :
    Draw.Gives (Pure.pure value : Draw ρ α) holds :=
  fun source => ⟨value, source, rfl, own⟩

theorem bind {first : Draw ρ α} {next : α → Draw ρ β} {holds : α → Prop} {after : β → Prop}
    (given : first.Gives holds) (later : ∀ value, holds value → (next value).Gives after) :
    Draw.Gives (first >>= next) after := by
  intro source
  obtain ⟨value, middle, drawn, own⟩ := given source
  obtain ⟨result, rest, followed, final⟩ := later value own middle
  exact ⟨result, rest, (Draw.bind_ok drawn next).trans followed, final⟩

end Draw.Gives

/-- The error of random code without a generator. -/
def noGenerators : Error := .config "no instructions are eligible for random code"

/-- A draw that always fails for want of a generator, in checked steps and without checks. -/
def Checked.Refuses (checked : Checked ρ α) (plain : Draw ρ α) : Prop :=
  ∀ source, ∃ rest, plain source = .error noGenerators rest ∧
    checked source = .error (.error noGenerators) rest

theorem Checked.Refuses.bind {checked : Checked ρ α} {plain : Draw ρ α}
    (first : checked.Refuses plain) (next : α → Checked ρ β) (plainNext : α → Draw ρ β) :
    (checked >>= next).Refuses (plain >>= plainNext) := by
  intro source
  obtain ⟨rest, failed, stopped⟩ := first source
  exact ⟨rest, Draw.bind_error failed plainNext, by simp only [bind_apply, stopped]⟩

theorem Checked.Refuses.follows {checked : Checked ρ α} {plain : Draw ρ α}
    (refuses : checked.Refuses plain) :
    checked.Follows plain := by
  intro source
  obtain ⟨rest, failed, stopped⟩ := refuses source
  rw [failed, stopped, ofResult]

section Sizes

variable [RandomSource ρ]

theorem sum_splitWithin (steps remaining parts : Nat) (source : ρ) (enough : remaining ≤ steps) :
    (splitWithin steps remaining parts source).1.sum = remaining := by
  induction steps generalizing remaining parts source with
  | zero => simpa [splitWithin] using (Nat.le_zero.mp enough).symm
  | succ steps ih =>
    unfold splitWithin
    split
    · simp [*]
    · split
      · simp
      · have inside := RandomSource.below_lt remaining source (by omega)
        simp only [List.sum_cons,
          ih _ _ _ (show remaining - ((below remaining source).1 + 1) ≤ steps by omega)]
        omega

theorem pos_of_mem_splitWithin (steps remaining parts : Nat) (source : ρ) :
    ∀ size ∈ (splitWithin steps remaining parts source).1, 0 < size := by
  induction steps generalizing remaining parts source with
  | zero => simp [splitWithin]
  | succ steps ih =>
    unfold splitWithin
    split
    · simp
    · split
      · simp
        omega
      · exact List.forall_mem_cons.mpr ⟨Nat.succ_pos _, ih _ _ _⟩

theorem sum_decompose (points parts : Nat) (source : ρ) :
    (decompose points parts source).1.sum = points :=
  (Checked.shuffleFrom_perm _ _ _ _).sum_nat.trans
    (sum_splitWithin points points parts source (Nat.le_refl points))

theorem pos_of_mem_decompose (points parts : Nat) (source : ρ) :
    ∀ size ∈ (decompose points parts source).1, 0 < size := fun size member =>
  pos_of_mem_splitWithin points points parts source size
    ((Checked.shuffleFrom_perm _ _ _ _).mem_iff.mp member)

end Sizes

namespace Environment

/-- The atoms that an eligible generator makes from some source. -/
def Makes (ρ : Type) [RandomSource ρ] (env : Environment) (atom : Atom) : Prop :=
  ∃ generator ∈ env.eligible, ∃ source : ρ, (generator.generate env.config source).1 = atom

/-- Every eligible generator makes leaves only. -/
def MakesLeaves (ρ : Type) [RandomSource ρ] (env : Environment) : Prop :=
  ∀ atom, env.Makes ρ atom → atom.isProgram = false

/-- Atoms of random code that take up some points: every leaf comes from a generator, and no nested
program is empty, nor is there any in flat code. -/
structure Grows (ρ : Type) [RandomSource ρ] (env : Environment) (points : Nat) (atoms : Program) :
    Prop where
  size_eq : atoms.size = points
  made : ∀ leaf ∈ atoms.leaves, env.Makes ρ leaf
  flat : env.config.flatCode = true → atoms.nestedPoints = 0
  nonempty : ∀ body, .program body ∈ atoms.preorder → body ≠ []

variable [RandomSource ρ] {env : Environment}

namespace Grows

theorem nil : env.Grows ρ 0 [] := ⟨rfl, by simp, fun _ => rfl, by simp⟩

theorem leaf {atom : Atom} (isLeaf : atom.isProgram = false) (made : env.Makes ρ atom) :
    env.Grows ρ 1 [atom] := by
  refine ⟨?_, ?_, fun _ => ?_, ?_⟩
  · simp [Program.size, Atom.points_leaf isLeaf]
  · simpa [Program.leaves_leaf isLeaf] using made
  · simp [Program.nestedPoints_leaf isLeaf]
  · intro body member
    obtain rfl : .program body = atom := by simpa [Atom.preorder_leaf isLeaf] using member
    cases isLeaf

theorem append {points more : Nat} {front back : Program} (first : env.Grows ρ points front)
    (second : env.Grows ρ more back) : env.Grows ρ (points + more) (front ++ back) := by
  refine ⟨?_, ?_, fun isFlat => ?_, ?_⟩
  · rw [Program.size_append, first.size_eq, second.size_eq]
  · rw [Program.leaves_append]
    exact List.forall_mem_append.mpr ⟨first.made, second.made⟩
  · rw [Program.nestedPoints_append, first.flat isFlat, second.flat isFlat]
  · intro body member
    rw [Program.preorder_append, List.mem_append] at member
    exact member.elim (first.nonempty body) (second.nonempty body)

theorem nested {points : Nat} {body : Program} (deep : env.config.flatCode = false)
    (positive : 0 < points) (inner : env.Grows ρ points body) :
    env.Grows ρ (points + 1) [.program body] := by
  refine ⟨?_, ?_, fun isFlat => ?_, ?_⟩
  · simp [Program.size, Atom.points, inner.size_eq]
  · simpa using inner.made
  · simp [deep] at isFlat
  · intro other member
    rw [Program.preorder_cons, Program.preorder_nil, List.append_nil, Atom.preorder, List.mem_cons]
      at member
    rcases member with same | deeper
    · obtain rfl := Atom.program.inj same
      rintro rfl
      have points := inner.size_eq
      simp only [Program.size] at points
      omega
    · exact inner.nonempty other deeper

end Grows

section Success

variable (eligible : env.eligible ≠ []) (leaves : env.MakesLeaves ρ)

include eligible in
theorem randomAtom_gives : (env.randomAtom : Draw ρ Atom).Gives (env.Makes ρ) := by
  intro source
  have present : env.eligible.isEmpty = false := List.isEmpty_eq_false_iff.mpr eligible
  have inside := RandomSource.below_lt env.eligible.length source (List.length_pos_iff.mpr eligible)
  obtain ⟨index, middle, drawn⟩ :
    ∃ index middle, below env.eligible.length source = (index, middle) := ⟨_, _, rfl⟩
  rw [drawn] at inside
  obtain ⟨atom, rest, generated⟩ :
      ∃ atom rest, (env.eligible[index]).generate env.config middle = (atom, rest) :=
    ⟨_, _, rfl⟩
  refine ⟨atom, rest, ?_, env.eligible[index], List.getElem_mem inside, middle,
    congrArg Prod.fst generated⟩
  simp only [randomAtom, present, Bool.false_eq_true, if_false, drawn,
    List.getElem?_eq_getElem inside, generated]

include eligible leaves

theorem randomAtoms_gives (count : Nat) :
    (env.randomAtoms count : Draw ρ (List Atom)).Gives (env.Grows ρ count) := by
  induction count with
  | zero => exact .pure .nil
  | succ count ih =>
    refine (randomAtom_gives eligible).bind fun atom made => ih.bind fun rest grown => .pure ?_
    rw [Nat.add_comm]
    exact Grows.append (.leaf (leaves atom made) made) grown

theorem randomPart_gives {nested : Nat → Draw ρ Program} {size : Nat} (positive : 0 < size)
    (inner : (nested size).Gives (env.Grows ρ (size - 1))) :
    (env.randomPart nested size).Gives (env.Grows ρ size) := by
  unfold randomPart
  split
  · rename_i single
    simpa only [single] using randomAtoms_gives eligible leaves 1
  · split
    · exact randomAtoms_gives eligible leaves size
    · rename_i several deep
      refine inner.bind fun body grown => .pure ?_
      have whole := Grows.nested (by simpa using deep) (show 0 < size - 1 by omega) grown
      rwa [Nat.sub_add_cancel positive] at whole

theorem randomParts_gives {nested : Nat → Draw ρ Program} (sizes : List Nat)
    (positive : ∀ size ∈ sizes, 0 < size)
    (inner : ∀ size ∈ sizes, (nested size).Gives (env.Grows ρ (size - 1))) :
    (env.randomParts nested sizes).Gives (env.Grows ρ sizes.sum) := by
  induction sizes with
  | nil => exact .pure .nil
  | cons size sizes ih =>
    obtain ⟨first, others⟩ := List.forall_mem_cons.mp positive
    obtain ⟨own, later⟩ := List.forall_mem_cons.mp inner
    refine (randomPart_gives eligible leaves first own).bind fun atoms grown =>
      (ih others later).bind fun rest more => .pure ?_
    rw [List.sum_cons]
    exact grown.append more

theorem randomCodeWithin_gives (depth size : Nat) (enough : size ≤ depth) :
    (env.randomCodeWithin depth size : Draw ρ Program).Gives (env.Grows ρ (size - 1)) := by
  induction depth generalizing size with
  | zero =>
    obtain rfl := Nat.le_zero.mp enough
    exact .pure .nil
  | succ depth ih =>
    intro source
    -- Every part is smaller than the whole, so that the depth left over is enough for it.
    have smaller := Checked.le_of_mem_decompose (size - 1) (size - 1) source
    have parts := randomParts_gives eligible leaves (decompose (size - 1) (size - 1) source).1
      (pos_of_mem_decompose (size - 1) (size - 1) source)
      (fun part member => ih part (by have := smaller part member; omega))
    rw [sum_decompose] at parts
    exact parts (decompose (size - 1) (size - 1) source).2

end Success

section Failure

variable (none : env.eligible = [])

include none

theorem randomAtom_refuses : (Checked.randomAtom env : Checked ρ Atom).Refuses env.randomAtom := by
  intro source
  refine ⟨source, ?_, ?_⟩
  · simp [randomAtom, none, noGenerators]
  · simp only [Checked.randomAtom, none, List.isEmpty_nil, if_true]
    rfl

theorem randomAtoms_refuses {count : Nat} (positive : 0 < count) :
    (Checked.randomAtoms env count : Checked ρ (List Atom)).Refuses (env.randomAtoms count) := by
  obtain ⟨fewer, rfl⟩ := Nat.exists_eq_add_one.mpr positive
  exact (randomAtom_refuses none).bind _ _

theorem randomPart_refuses {nested : Nat → Checked ρ Program} {plain : Nat → Draw ρ Program}
    {size : Nat} (positive : 0 < size) (inner : 2 ≤ size → (nested size).Refuses (plain size)) :
    (Checked.randomPart env nested size).Refuses (env.randomPart plain size) := by
  unfold Checked.randomPart randomPart
  split
  · exact randomAtoms_refuses none Nat.one_pos
  · split
    · exact randomAtoms_refuses none positive
    · exact (inner (by omega)).bind _ _

/-- The first part already fails, where there is one. -/
theorem randomParts_refuses {nested : Nat → Checked ρ Program} {plain : Nat → Draw ρ Program}
    {sizes : List Nat} (present : 0 < sizes.sum) (positive : ∀ size ∈ sizes, 0 < size)
    (inner : ∀ size ∈ sizes, 2 ≤ size → (nested size).Refuses (plain size)) :
    (Checked.randomParts env nested sizes).Refuses (env.randomParts plain sizes) := by
  cases sizes with
  | nil => simp at present
  | cons first others =>
    have part :=
      randomPart_refuses none (positive first List.mem_cons_self) (inner first List.mem_cons_self)
    exact part.bind _ _

theorem randomCodeWithin_refuses (depth size : Nat) (several : 2 ≤ size) (enough : size ≤ depth) :
    (Checked.randomCodeWithin env depth size : Checked ρ Program).Refuses
      (env.randomCodeWithin depth size) := by
  induction depth generalizing size with
  | zero => omega
  | succ depth ih =>
    intro source
    have sizes := Checked.decompose_yields (size - 1) (size - 1) source
    have smaller := Checked.le_of_mem_decompose (size - 1) (size - 1) source
    have present : 0 < (decompose (size - 1) (size - 1) source).1.sum := by
      rw [sum_decompose]
      omega
    obtain ⟨rest, failed, stopped⟩ := randomParts_refuses none present
      (pos_of_mem_decompose (size - 1) (size - 1) source)
      (fun part member nested => ih part nested (by have := smaller part member; omega))
      (decompose (size - 1) (size - 1) source).2
    refine ⟨rest, failed, ?_⟩
    simp only [Checked.randomCodeWithin, Checked.bind_apply, sizes, stopped]

end Failure

theorem randomCode_one (env : Environment) {size : Nat} (small : size ≤ 1) (source : ρ) :
    env.randomCode size source = .ok [] source ∧
      Checked.randomCodeWithin env size size source = .ok [] source := by
  obtain rfl | rfl : size = 0 ∨ size = 1 := by omega
  · exact ⟨rfl, rfl⟩
  · exact ⟨rfl, rfl⟩

theorem randomAtom_follows (env : Environment) :
    (Checked.randomAtom env : Checked ρ Atom).Follows env.randomAtom := by
  by_cases none : env.eligible = []
  · exact (randomAtom_refuses none).follows
  · exact (Checked.randomAtom_passes none).follows

theorem randomCode_follows (env : Environment) (size : Nat) :
    (Checked.randomCodeWithin env size size : Checked ρ Program).Follows (env.randomCode size) := by
  by_cases none : env.eligible = []
  · by_cases small : size ≤ 1
    · intro source
      obtain ⟨plain, checked⟩ := randomCode_one env small source
      rw [plain, checked, Checked.ofResult]
    · exact (randomCodeWithin_refuses none size size (by omega) (Nat.le_refl size)).follows
  · exact (Checked.randomCodeWithin_passes none size size (Nat.le_refl size)).follows

/-- Random code is always made unless more than one point is asked for and there is no generator. -/
theorem exists_randomCode (leaves : env.MakesLeaves ρ) {size : Nat}
    (possible : ¬ (2 ≤ size ∧ env.eligible = [])) (source : ρ) :
    ∃ program rest, env.randomCode size source = .ok program rest ∧
      Checked.randomCodeWithin env size size source = .ok program rest ∧
        env.Grows ρ (size - 1) program := by
  by_cases small : size ≤ 1
  · obtain ⟨plain, checked⟩ := randomCode_one env small source
    refine ⟨[], source, plain, checked, ?_⟩
    rw [Nat.sub_eq_zero_of_le small]
    exact .nil
  · have eligible : env.eligible ≠ [] := fun none => possible ⟨by omega, none⟩
    obtain ⟨program, rest, plain, checked⟩ :=
      Checked.randomCodeWithin_passes eligible size size (Nat.le_refl size) source
    -- Both lemmas run the same draw, so what they give is one program.
    obtain ⟨same, _, again, grown⟩ :=
      randomCodeWithin_gives eligible leaves size size (Nat.le_refl size) source
    rw [plain] at again
    cases again
    exact ⟨program, rest, plain, checked, grown⟩

theorem makesLeaves_of_reachable {σ : Type} {set : InstructionSet σ} (reachable : set.Reachable)
    (config : Config) : (Environment.mk config set.eligible).MakesLeaves ρ := by
  rintro atom ⟨generator, member, source, rfl⟩
  exact Generator.isProgram_generate (reachable.makesLeaves.drawn generator member) config source

/-- Random code takes up just the points asked for, at least one, and its leaves come from the
eligible generators. There are no nested programs in flat code and no empty ones else. It fails if
more than one point is asked for and there is no generator, and not otherwise. The recursion ends of
itself, since the code in checked steps, which stops at its bound, is the same. The generators make
leaves in every set that definitions and lists lead to. -/
theorem randomCode_exact {σ : Type} :
    (∀ (set : InstructionSet σ) (config : Config), set.Reachable →
      (Environment.mk config set.eligible).MakesLeaves ρ) ∧
    ∀ env : Environment, env.MakesLeaves ρ → ∀ (size : Nat) (source : ρ),
      (2 ≤ size ∧ env.eligible = [] → ∃ rest,
        env.randomCode size source = .error noGenerators rest ∧
        Checked.randomCodeWithin env size size source = .error (.error noGenerators) rest) ∧
      (¬ (2 ≤ size ∧ env.eligible = []) → ∃ program rest,
        env.randomCode size source = .ok program rest ∧
        Checked.randomCodeWithin env size size source = .ok program rest ∧
        program.points = max 1 size ∧ (∀ leaf ∈ program.leaves, env.Makes ρ leaf) ∧
        (env.config.flatCode = true → program.nestedPoints = 0) ∧
        (env.config.flatCode = false → ∀ body, .program body ∈ program.preorder → body ≠ [])) := by
  constructor
  · exact fun set config reachable => makesLeaves_of_reachable reachable config
  · intro env leaves size source
    constructor
    · rintro ⟨several, none⟩
      exact randomCodeWithin_refuses none size size several (Nat.le_refl size) source
    · intro possible
      obtain ⟨program, rest, plain, checked, grown⟩ := exists_randomCode leaves possible source
      refine ⟨program, rest, plain, checked, ?_, grown.made, grown.flat, fun _ => grown.nonempty⟩
      rw [Program.points, grown.size_eq]
      omega

/-- Nested code from the one instruction of a set, and code that there is no generator for. -/
theorem randomCode_exact_script :
    let set : InstructionSet Script := InstructionSet.literals.add "x" (.inputAt 0)
    let env : Environment := ⟨{}, set.eligible⟩
    let source : Script := { draws := [3, 0, 0, 2] }
    set.Reachable ∧ env.MakesLeaves Script ∧
      (∃ program rest, env.randomCode 7 source = .ok program rest ∧ program.points = 7 ∧
        (∀ leaf ∈ program.leaves, leaf = .name "x") ∧
        ∀ body, .program body ∈ program.preorder → body ≠ []) ∧
      ∃ rest, (Environment.mk {} []).randomCode 3 source = .error noGenerators rest := by
  intro set env source
  have reachable : set.Reachable := .add .literals "x" (.inputAt 0)
  obtain ⟨leaves, sized⟩ := randomCode_exact (ρ := Script) (σ := Script)
  have some : ¬ (2 ≤ 7 ∧ env.eligible = []) := by decide
  obtain ⟨program, rest, made, -, points, produced, -, nonempty⟩ :=
    (sized env (leaves set {} reachable) 7 source).2 some
  obtain ⟨left, failed, -⟩ :=
    (sized (Environment.mk {} []) (by simp [MakesLeaves, Makes]) 3 source).1 ⟨by decide, rfl⟩
  refine ⟨reachable, leaves set {} reachable,
    ⟨program, rest, made, points, fun leaf member => ?_, nonempty rfl⟩, left, failed⟩
  obtain ⟨generator, only, -, rfl⟩ := produced leaf member
  obtain rfl : generator = .instruction "x" := List.mem_singleton.mp only
  rfl

end Environment

end PushLang
