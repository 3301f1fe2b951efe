import PushLang.Files
import PushLang.Interpreter.Basic

namespace PushLang.Interpreter

variable {ρ : Type} {m : Type → Type} [Monad m]

/-- Selects what random code draws from by the instruction list in a file. -/
def loadListFile (read : ReadFile m) (path : String) (interpreter : Interpreter ρ) :
    m (Except Error Unit × Interpreter ρ) := do
  match ← read path with
  | .ok text => return interpreter.loadList text
  | .error cause => return (.error (.file cause), interpreter)

/-- A new interpreter, with its instruction list loaded if its configuration names one. -/
def setup (read : ReadFile m) (config : Config) (random : ρ) :
    m (Except Error (Interpreter ρ)) := do
  let interpreter := Interpreter.new config random
  match config.instructionList with
  | none => return .ok interpreter
  | some path =>
    let (result, interpreter) ← interpreter.loadListFile read path
    return result.map fun _ => interpreter

end PushLang.Interpreter
