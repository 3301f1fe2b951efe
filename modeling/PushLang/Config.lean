import PushLang.Files
import PushLang.Json.Record

namespace PushLang

structure Config where
  /-- Steps that one evaluation may take. -/
  executionLimit : Nat := 100
  /-- Points below the root that a program may have. -/
  maxPoints : Nat := 100
  /-- Points that random code made by instructions and mutations may have. -/
  maxRandomCodeSize : Nat := 30
  /-- Whether every nested program runs on stacks of its own. -/
  frameMode : Bool := false
  minInteger : Int32 := -10
  /-- Random integers stay below this one. -/
  maxInteger : Int32 := 10
  /-- Random integers are multiples of a positive step above the least one. -/
  integerStep : Int32 := 1
  minFloat : Binary32 := -10
  maxFloat : Binary32 := 10
  /-- Random floats are multiples of a positive step above the least one. -/
  floatStep : Binary32 := 0.01
  /-- Whether random code has no nested programs. -/
  flatCode : Bool := false
  /-- The file with the instructions eligible for random code. -/
  instructionList : Option String := none

namespace Config

def fieldNames : List String :=
  ["execution_limit", "max_points_in_program", "max_random_code_size", "push_frame_mode",
    "min_random_integer", "max_random_integer", "random_integer_res", "min_random_float",
    "max_random_float", "random_float_res", "generate_flat", "instruction_list"]

def ofJson? (json : Json) : Option Config := do
  let fields ← json.fields? fieldNames
  let default : Config := {}
  return {
    executionLimit := ← fields.get? 0 Json.word? default.executionLimit
    maxPoints := ← fields.get? 1 Json.word? default.maxPoints
    maxRandomCodeSize := ← fields.get? 2 Json.word? default.maxRandomCodeSize
    frameMode := ← fields.get? 3 Json.boolean? default.frameMode
    minInteger := ← fields.get? 4 Json.int32? default.minInteger
    maxInteger := ← fields.get? 5 Json.int32? default.maxInteger
    integerStep := ← fields.get? 6 Json.int32? default.integerStep
    minFloat := ← fields.get? 7 Json.single? default.minFloat
    maxFloat := ← fields.get? 8 Json.single? default.maxFloat
    floatStep := ← fields.get? 9 Json.single? default.floatStep
    flatCode := ← fields.get? 10 Json.boolean? default.flatCode
    instructionList := ← fields.get? 11 Json.path? default.instructionList }

def parse (text : String) : Except Error Config := Json.decode ofJson? text

def load {m : Type → Type} [Monad m] (read : ReadFile m) (path : String) :
    m (Except Error Config) := do
  match ← read path with
  | .ok text => return parse text
  | .error cause => return .error (.file cause)

end Config

end PushLang
