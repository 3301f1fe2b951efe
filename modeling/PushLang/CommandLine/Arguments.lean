import PushLang.Numeral.Integer
import PushLang.Text.Words

namespace PushLang

/-- What a command line asks for. -/
structure Arguments where
  config : Option String := none
  instructions : Option String := none
  seed : Option Nat := none
  steps : Option Nat := none
  random : Option Nat := none
  program : Option String := none
deriving Repr, DecidableEq

/-- Why the arguments do not lead to a run. -/
inductive Refusal where
  | usage
  | version
deriving Repr, DecidableEq

/-- The options that take a value. -/
inductive Setting where
  | config
  | instructions
  | seed
  | steps
  | random
deriving Repr, DecidableEq

namespace Setting

def all : List Setting := [.config, .instructions, .seed, .steps, .random]

def longName : Setting → String
  | .config => "config"
  | .instructions => "instructions"
  | .seed => "seed"
  | .steps => "steps"
  | .random => "random"

def letter? : Setting → Option Char
  | .config => some 'c'
  | .instructions => some 'i'
  | .seed => some 's'
  | .steps => none
  | .random => some 'r'

end Setting

/-- What one argument is by its form. -/
inductive Argument where
  /-- Two dashes alone: every argument after them is plain. -/
  | terminator
  | version
  /-- An option, with its value if that is attached. -/
  | setting (setting : Setting) (attached : Option String)
  | unknown
  | plain (text : String)
deriving Repr, DecidableEq

namespace Argument

/-- The argument with a name, and a value after an equals sign. -/
def ofLong (name : List Char) (attached : Option (List Char)) : Argument :=
  match Setting.all.find? fun setting => setting.longName.toList == name with
  | some found => .setting found (attached.map String.ofList)
  | none => if name = "version".toList ∧ attached = none then .version else .unknown

/-- The value attached to a letter, with or without an equals sign. -/
def attachedTo : List Char → Option String
  | [] => none
  | '=' :: value => some (String.ofList value)
  | value => some (String.ofList value)

/-- The argument with a letter and what follows it. -/
def ofShort (letter : Char) (rest : List Char) : Argument :=
  match Setting.all.find? fun setting => setting.letter? == some letter with
  | some found => .setting found (attachedTo rest)
  | none => if letter = 'V' then .version else .unknown

/-- What an argument is. A single dash is plain. -/
def ofText (text : String) : Argument :=
  match text.toList with
  | ['-', '-'] => .terminator
  | '-' :: '-' :: rest => match rest.dropWhile (· ≠ '=') with
    | '=' :: value => ofLong (rest.takeWhile (· ≠ '=')) (some value)
    | _ => ofLong rest none
  | '-' :: letter :: rest => ofShort letter rest
  | _ => .plain text

end Argument

namespace Arguments

/-- Fills a field that is still empty. -/
def fill {α : Type} (field : Option α) (value : Option α) : Except Refusal (Option α) :=
  match field, value with
  | none, some value => .ok (some value)
  | _, _ => .error .usage

/-- A path, which is not empty. -/
def path? (text : String) : Option String := if text.isEmpty then none else some text

def number? (text : String) : Option Nat := Numeral.word64? text.toList

/-- Gives an option its value. An option is given once. -/
def set (given : Arguments) (setting : Setting) (value : String) : Except Refusal Arguments :=
  match setting with
  | .config => (fill given.config (path? value)).map fun value => { given with config := value }
  | .instructions =>
    (fill given.instructions (path? value)).map fun value => { given with instructions := value }
  | .seed => (fill given.seed (number? value)).map fun value => { given with seed := value }
  | .steps => (fill given.steps (number? value)).map fun value => { given with steps := value }
  | .random => (fill given.random (number? value)).map fun value => { given with random := value }

/-- Takes a plain argument for the program. There is only one. -/
def setProgram (given : Arguments) (text : String) : Except Refusal Arguments :=
  (fill given.program (some text)).map fun value => { given with program := value }

/-- Reads on with what was given so far. The value of an option may be the next argument if that is
plain. -/
def readFrom (given : Arguments) : List String → Except Refusal Arguments
  | [] => .ok given
  | argument :: rest => match Argument.ofText argument with
    | .terminator => rest.foldlM setProgram given
    | .version => .error .version
    | .unknown => .error .usage
    | .plain text => (given.setProgram text).bind fun given => given.readFrom rest
    | .setting setting (some value) =>
      (given.set setting value).bind fun given => given.readFrom rest
    | .setting setting none => match rest with
      | [] => .error .usage
      | value :: rest => match Argument.ofText value with
        | .plain value => (given.set setting value).bind fun given => given.readFrom rest
        | _ => .error .usage

/-- Reads a command line. A program is given or random, not both. -/
def read (arguments : List String) : Except Refusal Arguments :=
  (readFrom {} arguments).bind fun given =>
    if given.random.isSome ∧ given.program.isSome then .error .usage else .ok given

end Arguments

end PushLang
