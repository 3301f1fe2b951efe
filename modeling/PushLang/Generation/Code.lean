import PushLang.Generation.Generator

/-! Random code of a given size. The points below the root are split into sizes, and every size
becomes an atom, or code of that many points in turn. -/

namespace PushLang

variable {ρ : Type} [RandomSource ρ]

/-- A draw that may fail; it leaves the source behind either way. -/
abbrev Draw (ρ α : Type) := EStateM Error ρ α

/-- Splits some points into sizes, at most `parts` of them unless that is zero: each is drawn from
what remains, and the last takes the rest. The first argument bounds the recursion; one step for
each point is enough. -/
def splitWithin : Nat → Nat → Nat → ρ → List Nat × ρ
  | 0, _, _, source => ([], source)
  | steps + 1, remaining, parts, source =>
    if remaining = 0 then ([], source)
    else if remaining = 1 ∨ parts ≤ 1 then ([remaining], source)
    else
      let (draw, source) := below remaining source
      let (sizes, source) := splitWithin steps (remaining - (draw + 1)) (parts - 1) source
      ((draw + 1) :: sizes, source)

def swapEntries (entries : List Nat) (i j : Nat) : List Nat :=
  match entries[i]?, entries[j]? with
  | some a, some b => (entries.set i b).set j a
  | _, _ => entries

/-- Exchanges each entry in turn, from position `i` on, with one drawn from the whole list. -/
def shuffleFrom (i : Nat) : Nat → List Nat → ρ → List Nat × ρ
  | 0, entries, source => (entries, source)
  | count + 1, entries, source =>
    let (j, source) := below entries.length source
    shuffleFrom (i + 1) count (swapEntries entries i j) source

/-- Splits some points into a shuffled list of sizes. -/
def decompose (points parts : Nat) (source : ρ) : List Nat × ρ :=
  let (sizes, source) := splitWithin points points parts source
  shuffleFrom 0 sizes.length sizes source

namespace Environment

/-- One atom of an eligible generator. -/
def randomAtom (env : Environment) : Draw ρ Atom := fun source =>
  if env.eligible.isEmpty then
    .error (.config "no instructions are eligible for random code") source
  else
    let (index, source) := below env.eligible.length source
    match env.eligible[index]? with
    | some generator =>
      let (atom, source) := generator.generate env.config source
      .ok atom source
    | none => .error (.config "no instructions are eligible for random code") source

/-- Some atoms in a row. -/
def randomAtoms (env : Environment) : Nat → Draw ρ (List Atom)
  | 0 => pure []
  | count + 1 => do
    let atom ← env.randomAtom
    let rest ← env.randomAtoms count
    return atom :: rest

/-- The atoms for one size: one atom for size one, and for a larger size as many atoms in a row when
code is flat, else a nested program, made by `nested`. -/
def randomPart (env : Environment) (nested : Nat → Draw ρ Program) (size : Nat) :
    Draw ρ (List Atom) :=
  if size = 1 then env.randomAtoms 1
  else if env.config.flatCode then env.randomAtoms size
  else do
    let body ← nested size
    return [.program body]

/-- The atoms for some sizes, one size after the other. -/
def randomParts (env : Environment) (nested : Nat → Draw ρ Program) : List Nat → Draw ρ (List Atom)
  | [] => pure []
  | size :: sizes => do
    let atoms ← env.randomPart nested size
    let rest ← env.randomParts nested sizes
    return atoms ++ rest

/-- Random code, nested no deeper than the first argument. -/
def randomCodeWithin (env : Environment) : Nat → Nat → Draw ρ Program
  | 0, _ => pure []
  | depth + 1, size => do
    let sizes ← fun source =>
      let (sizes, source) := decompose (size - 1) (size - 1) source
      .ok sizes source
    env.randomParts (env.randomCodeWithin depth) sizes

/-- A program with `size` points, its root included. -/
def randomCode (env : Environment) (size : Nat) : Draw ρ Program := env.randomCodeWithin size size

end Environment

end PushLang
