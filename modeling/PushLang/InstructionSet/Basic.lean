import PushLang.Builtin.Effect
import PushLang.Stack.Printer
import Std.Data.ExtTreeMap

/-! Instruction sets: which name stands for which instruction, what random code can be drawn from
under which name, and what it is drawn from at present. Names are ordered by their characters, so
listings do not depend on how the set grew. -/

namespace PushLang

/-- A table with names as keys. -/
abbrev Table (α : Type) := Std.ExtTreeMap String α

structure InstructionSet (ρ : Type) where
  table : Table (Instruction ρ) := ∅
  generators : Table Generator := ∅
  /-- What random code draws from at present, with repetitions. -/
  eligible : List Generator := []

namespace InstructionSet

variable {ρ : Type}

/-- The set with nothing but the generators of literals. -/
def literals : InstructionSet ρ where
  generators := Std.ExtTreeMap.ofList [("integer.erc", Generator.integerConstant),
    ("float.erc", Generator.floatConstant), ("true", Generator.literal (.boolean true)),
    ("false", Generator.literal (.boolean false))]

/-- Gives a name to an instruction and to the generator of that name. -/
def define (set : InstructionSet ρ) (name : String) (instruction : Instruction ρ) :
    InstructionSet ρ :=
  { set with
    table := set.table.insert name instruction
    generators := set.generators.insert name (.instruction name) }

/-- Defines an instruction that random code can draw at once. -/
def add (set : InstructionSet ρ) (name : String) (instruction : Instruction ρ) : InstructionSet ρ :=
  let set := set.define name instruction
  { set with eligible := set.eligible ++ [.instruction name] }

/-- The set with the literals and every built-in instruction, none of them eligible yet. -/
def standard : InstructionSet ρ :=
  Builtin.all.foldl (fun set builtin => set.define builtin.name (.builtin builtin)) literals

def get? (set : InstructionSet ρ) (name : String) : Option (Instruction ρ) := set.table[name]?

def contains (set : InstructionSet ρ) (name : String) : Bool := set.table.contains name

def size (set : InstructionSet ρ) : Nat := set.table.size

/-- The names of the instructions, in order. -/
def names (set : InstructionSet ρ) : List String := set.table.keys

/-- The names that start with a lead, in order. -/
def namesAfter (set : InstructionSet ρ) (lead : String) : List String :=
  set.names.filter fun name => lead.toList.isPrefixOf name.toList

def generator? (set : InstructionSet ρ) (label : String) : Option Generator :=
  set.generators[label]?

/-- The labels of the eligible generators, in order and each one once. -/
def eligibleNames (set : InstructionSet ρ) : List String :=
  ((set.eligible.map Generator.label).mergeSort fun a b => a ≤ b).eraseDups

/-- A short description with the number of instructions and the eligible labels. -/
def text (set : InstructionSet ρ) : String :=
  "InstructionSet \x7b instructions: " ++ toString set.size ++ ", eligible: [" ++
    ", ".intercalate (set.eligibleNames.map Text.quoted) ++ "] \x7d"

end InstructionSet

end PushLang
