import PushLang.Text.Printable
import PushLang.Text.Extending

namespace PushLang.Text

/-- The form of a character between quotes: the marks with a short form have it, and what is not
printable, or would join the character before it, is written by its code point. -/
def escaped (c : Char) : String :=
  match c with
  | '"' => "\\\""
  | '\\' => "\\\\"
  | '\n' => "\\n"
  | '\t' => "\\t"
  | '\r' => "\\r"
  | '\x00' => "\\0"
  | _ =>
    if isExtending c || !isPrintable c then
      "\\u\x7b" ++ String.ofList (Nat.toDigits 16 c.toNat) ++ "\x7d"
    else c.toString

def quoted (text : String) : String := "\"" ++ String.join (text.toList.map escaped) ++ "\""

end PushLang.Text
