import PushLang.Proofs.Interpreter.Forgetting
import PushLang.Proofs.Interpreter.Run

/-! Runs in parts. A run can be stopped after any number of atoms and taken up again later: the
machine is all that carries over from one atom to the next, unless an instruction reads how many
steps were counted before. -/

namespace PushLang

variable {ρ : Type} [RandomSource ρ]

namespace InstructionSet

variable (set : InstructionSet ρ) (context : Context)

end InstructionSet

namespace Interpreter

end Interpreter

end PushLang
