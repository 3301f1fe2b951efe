import PushLang.Fitness
import PushLang.Interpreter.Basic
import PushLang.Numeral.Real
import PushLang.Text.Words

namespace PushLang

/-- An input with the output wanted for it. -/
structure Case where
  input : Binary32
  output : Binary32

namespace Case

def number (word : List Char) : Except Error Binary32 :=
  match Numeral.real? word with
  | some value => .ok value
  | none => .error (.parse ("bad test case value \"" ++ String.ofList word ++ "\""))

/-- Pairs up an even number of values. -/
def ofValues : List Binary32 → Except Error (List Case)
  | [] => .ok []
  | input :: output :: rest => (ofValues rest).map (⟨input, output⟩ :: ·)
  | [_] => .error (.parse "test cases must come in input/output pairs")

/-- The cases of a text, which alternates inputs and outputs. -/
def parse (text : String) : Except Error (List Case) :=
  ((Text.words text.toList).mapM number).bind ofValues

end Case

structure Regression where
  cases : List Case
  /-- Copies of the input that start out on the float stack. -/
  copies : Nat := 1
  /-- The error of a run that leaves no float. -/
  penalty : Binary32 := 1000
  /-- Errors below it count as hits. -/
  threshold : Binary32 := 0.01

namespace Regression

variable {ρ : Type}

/-- Puts an input on the float stack and on the input stack. -/
def seed (problem : Regression) (input : Binary32) (machine : Machine ρ) : Machine ρ :=
  { machine with
    data := { machine.data with float := List.replicate problem.copies input ++ machine.data.float }
    input := .float input :: machine.input }

/-- The error of a result, or the penalty for none. -/
def errorOf (problem : Regression) (output : Binary32) : Option Binary32 → Binary32
  | some result => (result - output).abs
  | none => problem.penalty

variable [RandomSource ρ]

/-- The error of a program on one case. -/
def caseError (problem : Regression) (interpreter : Interpreter ρ) (program : Program)
    (case : Case) :
    Except Error Binary32 × Interpreter ρ :=
  match interpreter.evaluateCase program (problem.seed case.input) with
  | (.error cause, interpreter) => (.error cause, interpreter)
  | (.ok _, interpreter) =>
    (.ok (problem.errorOf case.output interpreter.machine.data.float.top?), interpreter)

/-- The errors of a program on some cases in order. A run that fails ends them. -/
def caseErrors (problem : Regression) (program : Program) (interpreter : Interpreter ρ) :
    List Case → Except Error (List Binary32) × Interpreter ρ
  | [] => (.ok [], interpreter)
  | case :: rest => match problem.caseError interpreter program case with
    | (.error cause, interpreter) => (.error cause, interpreter)
    | (.ok error, interpreter) =>
      let (errors, interpreter) := problem.caseErrors program interpreter rest
      (errors.map (error :: ·), interpreter)

def evaluate (problem : Regression) (interpreter : Interpreter ρ) (program : Program) :
    Except Error Fitness × Interpreter ρ :=
  let (errors, interpreter) := problem.caseErrors program interpreter problem.cases
  (errors.map fun errors => Fitness.ofErrors errors problem.threshold, interpreter)

end Regression

end PushLang
