import PushLang.Atom
import PushLang.Stack

namespace PushLang

/-- One stack for every kind of literal, one for names and one for code. -/
structure Stacks where
  integer : Stack Int32 := []
  float : Stack Binary32 := []
  boolean : Stack Bool := []
  name : Stack String := []
  code : Stack Atom := []

namespace Stacks

/-- Pushes an atom onto the stack of its kind; a nested program goes onto the code stack. -/
def push (data : Stacks) : Atom → Stacks
  | .integer value => { data with integer := value :: data.integer }
  | .float value => { data with float := value :: data.float }
  | .boolean value => { data with boolean := value :: data.boolean }
  | .name text => { data with name := text :: data.name }
  | .program body => { data with code := .program body :: data.code }

def isEmpty (data : Stacks) : Bool :=
  data.integer.isEmpty && data.float.isEmpty && data.boolean.isEmpty && data.name.isEmpty &&
    data.code.isEmpty

/-- Empties every stack. -/
def clear (data : Stacks) : Stacks :=
  { data with integer := [], float := [], boolean := [], name := [], code := [] }

/-- The top values of some stacks. Numbers and truth values have a default; a name and code may be
missing. -/
structure Tops where
  integer : Int32
  float : Binary32
  boolean : Bool
  name : Option String
  code : Option Atom

/-- The top values, zero and false standing in for those of empty stacks. -/
def tops (data : Stacks) : Tops where
  integer := data.integer.top?.getD 0
  float := data.float.top?.getD 0
  boolean := data.boolean.top?.getD false
  name := data.name.top?
  code := data.code.top?

/-- Pushes top values, each onto its stack. -/
def seed (data : Stacks) (tops : Tops) : Stacks where
  integer := tops.integer :: data.integer
  float := tops.float :: data.float
  boolean := tops.boolean :: data.boolean
  name := tops.name.toList ++ data.name
  code := tops.code.toList ++ data.code

end Stacks

end PushLang
