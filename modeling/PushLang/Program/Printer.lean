import PushLang.Atom
import PushLang.Numeral.Shortest

namespace PushLang

mutual

/-- The printed form of an atom. -/
def Atom.chars : Atom → List Char
  | .integer value => Numeral.ofInt value.toInt
  | .float value => Numeral.ofBinary32 Numeral.literal value
  | .boolean value => if value then ['t', 'r', 'u', 'e'] else ['f', 'a', 'l', 's', 'e']
  | .name text => text.toList
  | .program body => '(' :: Program.charsOfList body ++ [')']

/-- The printed forms of some atoms with a space between them. -/
def Program.charsOfList : List Atom → List Char
  | [] => []
  | [atom] => atom.chars
  | atom :: rest => atom.chars ++ ' ' :: Program.charsOfList rest

end

/-- The printed form of an atom. -/
def Atom.text (atom : Atom) : String := String.ofList atom.chars

/-- The printed form of a program. -/
def Program.chars (program : Program) : List Char := (Atom.program program).chars

/-- The printed form of a program. -/
def Program.text (program : Program) : String := String.ofList program.chars

end PushLang
