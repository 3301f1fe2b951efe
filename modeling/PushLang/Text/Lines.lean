namespace PushLang.Text

/-- Reads on with the characters of an unfinished line, kept backwards. A line ends at a line feed,
together with a carriage return just before it; the last line may end with the text. -/
def linesFrom (pending : List Char) : List Char → List (List Char)
  | [] => if pending.isEmpty then [] else [pending.reverse]
  | '\r' :: '\n' :: rest => pending.reverse :: linesFrom [] rest
  | '\n' :: rest => pending.reverse :: linesFrom [] rest
  | c :: rest => linesFrom (c :: pending) rest

/-- The lines of a text, in order. -/
def lines (text : List Char) : List (List Char) := linesFrom [] text

/-- The lines of a text on a single one, with a space between any two. -/
def joinLines (text : List Char) : List Char := [' '].intercalate (lines text)

end PushLang.Text
