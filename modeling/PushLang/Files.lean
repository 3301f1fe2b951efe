import PushLang.Error

/-! Access to text files. What reads files takes the access as an argument, so that it runs on a
disk as well as on a table of contents. -/

namespace PushLang

/-- Reads the text of the file at a path. -/
abbrev ReadFile (m : Type → Type) := String → m (Except FileError String)

/-- The text that some bytes encode. -/
def decodeText (bytes : ByteArray) : Except FileError String :=
  match String.fromUTF8? bytes with
  | some text => .ok text
  | none => .error .notText

end PushLang
