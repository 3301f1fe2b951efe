import PushLang.Atom
import PushLang.Error
import PushLang.Numeral.Real
import PushLang.Text.Blank

/-! Reading program texts. A text is a sequence of tokens: parentheses, and words, which blanks and
parentheses separate. Parentheses nest programs and every word is one atom. -/

namespace PushLang

namespace Program

/-- A parenthesis or a word. -/
inductive Token where
  | opening
  | closing
  | word (text : List Char)
deriving Repr, DecidableEq

/-- The word read so far, kept backwards, becomes a token unless it is empty. -/
def closeToken (pending : List Char) (rest : List Token) : List Token :=
  if pending.isEmpty then rest else .word pending.reverse :: rest

/-- Reads on with the letters of an unfinished word, kept backwards. -/
def tokensFrom (pending : List Char) : List Char → List Token
  | [] => closeToken pending []
  | c :: rest =>
    if Text.isBlank c then closeToken pending (tokensFrom [] rest)
    else if c = '(' then closeToken pending (.opening :: tokensFrom [] rest)
    else if c = ')' then closeToken pending (.closing :: tokensFrom [] rest)
    else tokensFrom (c :: pending) rest

/-- The tokens of a text, in order. -/
def tokens (text : List Char) : List Token := tokensFrom [] text

end Program

/-- A word is an integer, a finite float, a truth value, or else a name; the first that fits. -/
def Atom.ofWord (word : List Char) : Atom :=
  match Numeral.int32? word with
  | some value => .integer value
  | none => match (Numeral.real? word).filter Binary32.isFinite with
    | some value => .float value
    | none =>
      if word = ['t', 'r', 'u', 'e'] then .boolean true
      else if word = ['f', 'a', 'l', 's', 'e'] then .boolean false
      else .name (String.ofList word)

namespace Program

/-- Reads on inside some open groups: the atoms before each of them, innermost first, and the atoms
of the current group, all kept backwards. -/
def readFrom (outer : List (List Atom)) (current : List Atom) : List Token → Except Error Program
  | [] => if outer.isEmpty then .ok current.reverse
    else .error (.parse (toString outer.length ++ " unclosed '('"))
  | .word text :: rest => readFrom outer (Atom.ofWord text :: current) rest
  | .opening :: rest => readFrom (current :: outer) [] rest
  | .closing :: rest => match outer with
    | [] => .error (.parse "unexpected ')'")
    | before :: others => readFrom others (.program current.reverse :: before) rest

/-- A single nested program stands for itself, and any other sequence for the program of its
atoms. -/
def unwrap : List Atom → Program
  | [.program body] => body
  | atoms => atoms

/-- The program that a text stands for. -/
def ofChars (text : List Char) : Except Error Program := (readFrom [] [] (tokens text)).map unwrap

/-- The program that a text stands for. -/
def parse (text : String) : Except Error Program := ofChars text.toList

end Program

end PushLang
