import PushLang.Atom
import PushLang.Error

namespace PushLang.Program

/-- Whether a program keeps to a limit. -/
def fits (program : Program) (limit : Nat) : Bool := program.size ≤ limit

/-- Refuses a program over the limit. -/
def checkSize (program : Program) (limit : Nat) : Except Error Unit :=
  if program.fits limit then .ok ()
  else .error (.invalid ("program has " ++ toString program.size ++ " points, limit is " ++
    toString limit))

end PushLang.Program
