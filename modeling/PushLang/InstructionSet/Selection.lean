import PushLang.InstructionSet.Basic
import PushLang.Numeral.Integer
import PushLang.Text.Words

/-! Selecting what random code draws from. A list names generators one by one, whole families of
instructions, or a number of input instructions that are defined on the way. -/

namespace PushLang

/-- One entry of an instruction list. -/
inductive Entry where
  /-- Every instruction of a family, with the literals of that kind. -/
  | family (kind : String)
  /-- The input instructions with numbers below the count. -/
  | inputs (count : Nat)
  /-- The generator with this label. -/
  | single (label : String)
deriving Repr, DecidableEq

namespace Entry

def familyLead : String := "registered."
def inputsLead : String := "input.makeinputs"

/-- The entry that a text stands for. -/
def ofText (text : String) : Except Error Entry :=
  match Text.after? familyLead.toList text.toList with
  | some kind => .ok (.family (String.ofList kind))
  | none => match Text.after? inputsLead.toList text.toList with
    | none => .ok (.single text)
    | some count => match Numeral.word64? count with
      | some count => .ok (.inputs count)
      | none => .error (.config ("bad input count in \"" ++ text ++ "\""))

/-- The text of an entry: a name or a truth value. -/
def textOf (atom : Atom) : Except Error String :=
  match atom with
  | .name text => .ok text
  | .boolean _ => .ok atom.text
  | _ =>
    .error (.config ("instruction list must contain instruction names only, found " ++ atom.text))

/-- The entry that an atom of a list stands for. -/
def ofAtom (atom : Atom) : Except Error Entry := (textOf atom).bind ofText

end Entry

namespace InstructionSet

variable {ρ : Type}

/-- The families that an entry can name. -/
def families : List String :=
  ["integer", "float", "boolean", "exec", "code", "name", StackKind.inputLabel, "frame"]

/-- The generators of literals of a kind. -/
def literalsOf (kind : String) : List Generator :=
  if kind = "boolean" then [.literal (.boolean true), .literal (.boolean false)]
  else if kind = "integer" then [.integerConstant]
  else if kind = "float" then [.floatConstant]
  else []

/-- The generators of a family: the instructions defined so far whose names start with its kind,
then its literals. There are none of an unknown kind. -/
def family (set : InstructionSet ρ) (kind : String) : List Generator :=
  if kind ∈ families then (set.namesAfter (kind ++ ".")).map .instruction ++ literalsOf kind else []

/-- The name of the instruction that pushes the input with a number. -/
def inputName (index : Nat) : String := "input.in" ++ toString index

/-- Defines the input instructions with numbers below a count. -/
def defineInputs (set : InstructionSet ρ) (count : Nat) : InstructionSet ρ :=
  (List.range count).foldl (fun set index => set.define (inputName index) (.inputAt index)) set

/-- The generators that an entry stands for, and the set with the instructions that the entry
defines. -/
def expand (set : InstructionSet ρ) : Entry → Except Error (List Generator × InstructionSet ρ)
  | .family kind => .ok (set.family kind, set)
  | .inputs count =>
    .ok ((List.range count).map fun index => .instruction (inputName index), set.defineInputs count)
  | .single label => match set.generator? label with
    | some generator => .ok ([generator], set)
    | none => .error (.config ("unknown instruction \"" ++ label ++ "\" in instruction set"))

/-- Goes through a list from left to right, with the generators selected so far. The set keeps what
the entries before a failure defined. -/
def selectFrom (selected : List Generator) (set : InstructionSet ρ) :
    Program → Except Error Unit × InstructionSet ρ
  | [] => (.ok (), { set with eligible := selected })
  | atom :: rest => match (Entry.ofAtom atom).bind set.expand with
    | .ok (generators, set) => selectFrom (selected ++ generators) set rest
    | .error cause => (.error cause, set)

/-- Makes exactly the generators that a list stands for eligible. A list that fails leaves the
eligible ones alone. -/
def configure (set : InstructionSet ρ) (list : Program) : Except Error Unit × InstructionSet ρ :=
  set.selectFrom [] list

end InstructionSet

end PushLang
