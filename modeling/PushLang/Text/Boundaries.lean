namespace PushLang.Text

/-- Whether a code point lies in the set with these ascending boundaries: it does when an odd number
of them is at or below it. -/
def withinBoundaries (code : Nat) : List Nat → Bool
  | [] => false
  | boundary :: rest => if code < boundary then false else !withinBoundaries code rest

end PushLang.Text
