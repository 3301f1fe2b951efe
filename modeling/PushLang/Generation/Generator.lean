import PushLang.Binary32.Arithmetic
import PushLang.Config
import PushLang.Program.Printer
import PushLang.Random.Source

namespace PushLang

variable {ρ : Type} [RandomSource ρ]

/-- A random integer: a multiple of a positive step above the least one, below the upper end of the
range. An empty range still has its least integer. -/
def randomInteger (config : Config) (source : ρ) : Int32 × ρ :=
  let span := max 1 (min (config.maxInteger.toInt - config.minInteger.toInt) Int32.maxValue.toInt)
  let (draw, source) := below span.toNat source
  let offset := Int32.ofNat draw
  let offset := if 0 < config.integerStep then offset - offset % config.integerStep else offset
  (offset + config.minInteger, source)

/-- A random float: a multiple of a positive step above the least one, up to rounding. -/
def randomFloat (config : Config) (source : ρ) : Binary32 × ρ :=
  let (draw, source) := unit source
  let offset := draw * (config.maxFloat - config.minFloat)
  let offset := if 0 < config.floatStep then offset - offset % config.floatStep else offset
  (offset + config.minFloat, source)

/-- What an atom of random code is drawn from. -/
inductive Generator where
  /-- The name of an instruction. -/
  | instruction (name : String)
  | integerConstant
  | floatConstant
  | literal (atom : Atom)
deriving DecidableEq

namespace Generator

/-- The name that a generator is listed under. -/
def label : Generator → String
  | .instruction name => name
  | .integerConstant => "integer.erc"
  | .floatConstant => "float.erc"
  | .literal atom => atom.text

/-- One atom. -/
def generate (config : Config) (source : ρ) : Generator → Atom × ρ
  | .instruction name => (.name name, source)
  | .integerConstant => (randomInteger config source).map .integer id
  | .floatConstant => (randomFloat config source).map .float id
  | .literal atom => (atom, source)

end Generator

/-- What running programs and making code read and do not change. -/
structure Environment where
  config : Config
  /-- The generators that random code draws from. -/
  eligible : List Generator

end PushLang
