import PushLang.Proofs.Interpreter.Closings

namespace PushLang

/-- No leaf of an atom is the name of one of these instructions. -/
def Atom.Lacks (names : List Builtin) (atom : Atom) : Prop :=
  ∀ leaf ∈ Program.leaves [atom], ∀ which ∈ names, leaf ≠ .name which.name

section Lacks

variable {names : List Builtin}

theorem Program.forall_lacks (program : Program) :
    (∀ atom ∈ program, atom.Lacks names) ↔
      ∀ leaf ∈ program.leaves, ∀ which ∈ names, leaf ≠ .name which.name := by
  rw [forall_leaves_iff]
  rfl

theorem Atom.lacks_program (body : Program) :
    (Atom.program body).Lacks names ↔ ∀ atom ∈ body, atom.Lacks names := by
  rw [Program.forall_lacks, Lacks, Program.leaves_nested, Program.leaves_nil, List.append_nil]

theorem Atom.lacks_leaf {atom : Atom} (leaf : atom.isProgram = false) :
    atom.Lacks names ↔ ∀ which ∈ names, atom ≠ .name which.name := by
  simp [Lacks, Program.leaves_leaf leaf]

theorem Atom.lacks_name {text : String} (apart : ∀ which ∈ names, text ≠ which.name) :
    (Atom.name text).Lacks names :=
  (lacks_leaf rfl).mpr fun which member same => apart which member (Atom.name.inj same)

theorem Atom.lacks_integer (value : Int32) : (Atom.integer value).Lacks names :=
  (lacks_leaf rfl).mpr (by simp)

theorem Atom.lacks_float (value : Binary32) : (Atom.float value).Lacks names :=
  (lacks_leaf rfl).mpr (by simp)

theorem Atom.lacks_boolean (value : Bool) : (Atom.boolean value).Lacks names :=
  (lacks_leaf rfl).mpr (by simp)

theorem Machine.lacks_withoutIndex {body : Atom} (own : body.Lacks names)
    (apart : ∀ which ∈ names, "integer.pop" ≠ which.name) :
    (withoutIndex body).Lacks names :=
  (Atom.lacks_program _).mpr
    (by simpa only [List.forall_mem_cons] using ⟨Atom.lacks_name apart, own, by simp⟩)

end Lacks

/-- Atoms that open no frame by themselves. -/
def Atom.NeverOpens : Atom → Prop := Atom.Lacks [.frame .push]

/-- Atoms without frames and without instructions that can take atoms away. -/
def Atom.IsClean : Atom → Prop := Atom.Lacks (.frame .push :: .frame .pop :: Builtin.discarding)

theorem stable_neverOpens : Stable Atom.NeverOpens Atom.NeverOpens where
  boolean := Atom.lacks_boolean
  integer := Atom.lacks_integer
  float := Atom.lacks_float
  scheduled _ own := own
  pair first second own other :=
    (Atom.lacks_program _).mpr (by simpa only [List.forall_mem_cons] using ⟨own, other, by simp⟩)
  repeated atom own :=
    (Atom.lacks_program _).mpr
      (by simpa only [List.forall_mem_cons] using ⟨Atom.lacks_name (by decide), own, by simp⟩)
  continued stack next destination body own := by
    cases stack with
    | code =>
      refine (Atom.lacks_program _).mpr ?_
      simp only [List.forall_mem_cons]
      exact ⟨Atom.lacks_integer next, Atom.lacks_integer destination, Atom.lacks_name (by decide),
        own, Atom.lacks_name (by decide), by simp⟩
    | exec =>
      refine (Atom.lacks_program _).mpr ?_
      simp only [List.forall_mem_cons]
      exact ⟨Atom.lacks_integer next, Atom.lacks_integer destination, Atom.lacks_name (by decide),
        own, by simp⟩
  withoutIndex stack body own := by
    cases stack <;> exact Machine.lacks_withoutIndex own (by decide)

/-- Atoms that take no closing of a frame away: their leaves neither open frames nor take atoms
away, except that a loop over the code stack quotes its body, which closes no frame. -/
inductive Atom.IsTame : Atom → Prop where
  | leaf {atom : Atom} (isLeaf : atom.isProgram = false)
      (lacks : atom.Lacks (.frame .push :: Builtin.discarding)) : atom.IsTame
  | program {body : Program} (atoms : ∀ atom ∈ body, atom.IsTame) : (Atom.program body).IsTame
  | continued {body : Atom} (next destination : Int32) (clean : body.IsClean) :
      (Machine.continuation .code next destination body).IsTame

theorem Atom.IsClean.isTame {atom : Atom} (clean : atom.IsClean) : atom.IsTame := by
  -- The induction is on programs, so that it reaches the atoms of nested ones.
  have every (program : Program) :
      (∀ atom ∈ program, atom.IsClean) → ∀ atom ∈ program, atom.IsTame := by
    induction program using Program.induction with
    | nil => simp
    | leaf atom rest isLeaf ih =>
      simp only [List.forall_mem_cons]
      refine And.imp (fun own => .leaf isLeaf ?_) ih
      exact (lacks_leaf isLeaf).mpr fun which member => (lacks_leaf isLeaf).mp own which
        ((List.mem_cons.mp member).elim (· ▸ .head _) fun later => .tail _ (.tail _ later))
    | nested body rest bodyIh ih =>
      simp only [List.forall_mem_cons]
      exact And.imp (fun own => .program (bodyIh ((lacks_program body).mp own))) ih
  exact every [atom] (by simpa using clean) atom (by simp)

theorem Atom.IsClean.closings_eq_zero {atom : Atom} (clean : atom.IsClean) : atom.closings = 0 :=
  List.count_eq_zero.mpr fun closing => clean _ closing (.frame .pop) (.tail _ (.head _)) rfl

theorem stable_isTame : Stable Atom.IsTame Atom.IsClean where
  boolean := Atom.lacks_boolean
  integer := Atom.lacks_integer
  float := Atom.lacks_float
  scheduled _ own := own.isTame
  pair first second own other :=
    .program (by simpa only [List.forall_mem_cons] using ⟨own, other, by simp⟩)
  repeated atom own :=
    .program (by
      simpa only [List.forall_mem_cons] using
        ⟨.leaf rfl (Atom.lacks_name (by decide)), own, by simp⟩)
  continued stack next destination body own := by
    cases stack with
    | code => exact .continued next destination own
    | exec =>
      refine .program ?_
      simp only [List.forall_mem_cons]
      exact ⟨.leaf rfl (Atom.lacks_integer next), .leaf rfl (Atom.lacks_integer destination),
        .leaf rfl (Atom.lacks_name (by decide)), own, by simp⟩
  withoutIndex stack body own := by
    cases stack with
    | code => exact Machine.lacks_withoutIndex own (by decide)
    | exec =>
      refine .program ?_
      simp only [List.forall_mem_cons]
      exact ⟨.leaf rfl (Atom.lacks_name (by decide)), own, by simp⟩

end PushLang
