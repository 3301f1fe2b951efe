import PushLang.Interpreter.Basic
import PushLang.Stack.Printer

namespace PushLang

/-- The fields of a configuration in order. -/
def Config.text (config : Config) : String :=
  let list := match config.instructionList with
    | none => "None"
    | some path => "Some(" ++ Text.quoted path ++ ")"
  "PushConfig \x7b execution_limit: " ++ toString config.executionLimit ++
    ", max_points_in_program: " ++ toString config.maxPoints ++
    ", max_random_code_size: " ++ toString config.maxRandomCodeSize ++
    ", push_frame_mode: " ++ booleanText config.frameMode ++
    ", min_random_integer: " ++ integerText config.minInteger ++
    ", max_random_integer: " ++ integerText config.maxInteger ++
    ", random_integer_res: " ++ integerText config.integerStep ++
    ", min_random_float: " ++ floatLiteral config.minFloat ++
    ", max_random_float: " ++ floatLiteral config.maxFloat ++
    ", random_float_res: " ++ floatLiteral config.floatStep ++
    ", generate_flat: " ++ booleanText config.flatCode ++ ", instruction_list: " ++ list ++ " \x7d"

/-- One line for each stack. -/
def Machine.dump {ρ : Type} (machine : Machine ρ) : String :=
  let data := machine.data
  let line (label contents : String) : String := label ++ " stack: " ++ contents ++ "\n"
  line "exec" (machine.exec.text Atom.text) ++ line "code" (data.code.text Atom.text) ++
    line "int" (data.integer.text integerText) ++ line "float" (data.float.text floatText) ++
    line "boolean" (data.boolean.text booleanText) ++ line "name" (data.name.text id) ++
    line "input" (machine.input.text Atom.text)

/-- The settings of an interpreter, its open frames and its steps. -/
def Interpreter.text {ρ : Type} (interpreter : Interpreter ρ) : String :=
  "Interpreter \x7b config: " ++ interpreter.config.text ++ ", instructions: " ++
    interpreter.instructions.text ++
    ", frames: " ++ toString interpreter.machine.frameDepth ++
    ", total_steps: " ++ toString interpreter.totalSteps ++ " \x7d"

end PushLang
