import PushLang.CommandLine.Arguments
import PushLang.Interpreter.Printer
import PushLang.Interpreter.Setup
import PushLang.Program.Limit
import PushLang.Random.Stream

namespace PushLang

/-- What a command line leads to: a text to print, a message about what failed, or no run because of
its form. -/
inductive Outcome where
  | printed (text : String)
  | failed (message : String)
  | badUsage
deriving Repr, DecidableEq

namespace Arguments

variable {m : Type → Type} [Monad m]

/-- The configuration asked for. An instruction list of its own overrides the one of the
configuration file. -/
def loadConfig (given : Arguments) (read : ReadFile m) : m (Except String Config) := do
  let config ← match given.config with
    | none => pure (.ok {})
    | some path => Config.load read path
  match config with
  | .error _ => return .error ("failed to load configuration " ++ given.config.getD "")
  | .ok config => match given.instructions with
    | none => return .ok config
    | some path => return .ok { config with instructionList := some path }

def stream (given : Arguments) : Stream := .ofSeed (UInt64.ofNat (given.seed.getD 0))

/-- The program to run: random code, or the given text if it keeps to the size limit. -/
def chooseProgram (given : Arguments) (env : Environment) : Except String Program :=
  match given.random, given.program with
  | some size, _ => match env.randomCode (max 1 size) given.stream with
    | .ok program _ => .ok program
    | .error _ _ => .error "random code needs an instruction list (--instructions)"
  | none, some text =>
    ((Program.parse text).bind fun program => (program.checkSize env.config.maxPoints).map fun _ =>
      program).mapError
      Error.message
  | none, none => .error "pass a program or --random <size>"

/-- Runs the program on an interpreter and prints it with the stacks afterwards. -/
def report (given : Arguments) (interpreter : Interpreter Stream) : Except String String := do
  let program ← given.chooseProgram interpreter.environment
  match interpreter.execute program (given.steps.getD interpreter.config.executionLimit) with
  | (.error cause, _) => .error cause.message
  | (.ok _, interpreter) => return "program: " ++ program.text ++ "\n" ++ interpreter.machine.dump

/-- Sets up an interpreter and runs what was asked for. -/
def run (given : Arguments) (read : ReadFile m) : m (Except String String) := do
  match ← given.loadConfig read with
  | .error message => return .error message
  | .ok config => match ← Interpreter.setup read config given.stream with
    | .error cause => return .error cause.message
    | .ok interpreter => return given.report interpreter

end Arguments

def versionText : String := "psh-run 0.1.0\n"

def runCommandLine {m : Type → Type} [Monad m] (read : ReadFile m) (arguments : List String) :
    m Outcome := do
  match Arguments.read arguments with
  | .error .usage => return .badUsage
  | .error .version => return .printed versionText
  | .ok given => match ← given.run read with
    | .ok text => return .printed text
    | .error message => return .failed message

end PushLang
