import PushLang.Stack
import PushLang.Program.Printer
import PushLang.Text.Quoted

namespace PushLang

/-- The items in brackets with a single space between them. -/
def Stack.text {α : Type} (shown : α → String) (stack : Stack α) : String :=
  "[" ++ " ".intercalate (stack.toBottom.map shown) ++ "]"

/-- The label and the items, separated by commas. -/
def Stack.longText {α : Type} (label : String) (shown : α → String) (stack : Stack α) : String :=
  "Stack \x7b label: " ++ Text.quoted label ++ ", items: [" ++
    ", ".intercalate (stack.toBottom.map shown) ++ "] \x7d"

def integerText (value : Int32) : String := String.ofList (Numeral.ofInt value.toInt)

def floatText (value : Binary32) : String := String.ofList (Numeral.ofBinary32 Numeral.plain value)

def floatLiteral (value : Binary32) : String :=
  String.ofList (Numeral.ofBinary32 Numeral.literal value)

def booleanText (value : Bool) : String := if value then "true" else "false"

def Program.longText (program : Program) : String := "Program" ++ program.text

def Atom.longText : Atom → String
  | .integer value => "Integer(" ++ integerText value ++ ")"
  | .float value => "Float(" ++ floatLiteral value ++ ")"
  | .boolean value => "Boolean(" ++ booleanText value ++ ")"
  | .name text => "Name(" ++ Text.quoted text ++ ")"
  | .program body => "Program(" ++ Program.longText body ++ ")"

end PushLang
