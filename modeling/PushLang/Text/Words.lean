import PushLang.Text.Blank

namespace PushLang.Text

/-- The word read so far, kept backwards, becomes a word of the list unless it is empty. -/
def closeWord (pending : List Char) (rest : List (List Char)) : List (List Char) :=
  if pending.isEmpty then rest else pending.reverse :: rest

/-- Reads on with the letters of an unfinished word, kept backwards. -/
def wordsFrom (pending : List Char) : List Char → List (List Char)
  | [] => closeWord pending []
  | c :: rest =>
    if isBlank c then closeWord pending (wordsFrom [] rest) else wordsFrom (c :: pending) rest

def words (text : List Char) : List (List Char) := wordsFrom [] text

/-- What follows a lead, if a text starts with it. -/
def after? (lead text : List Char) : Option (List Char) :=
  if lead.isPrefixOf text then some (text.drop lead.length) else none

end PushLang.Text
