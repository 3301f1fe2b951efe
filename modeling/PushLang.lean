import PushLang.Program.Reader
import PushLang.Program.Printer
import PushLang.Program.Point
import PushLang.Program.Segment
import PushLang.Program.Limit
import PushLang.Binary32.Arithmetic
import PushLang.Binary32.Elementary
import PushLang.Stack.Printer
import PushLang.Random.Script
import PushLang.Random.Stream
import PushLang.Config
import PushLang.Fitness
import PushLang.Machine.Basic
import PushLang.Generation.Code
import PushLang.Builtin.Effect
import PushLang.Interpreter.Printer
import PushLang.Breeding.SinglePoint
import PushLang.Breeding.TwoPoint
import PushLang.Breeding.Mutation
import PushLang.Regression
import PushLang.Files.Tree
import PushLang.Main
import PushLang.Proofs.Program.RoundTrip
import PushLang.Proofs.Breeding.Conservation
import PushLang.Proofs.Interpreter.Unrolling
import PushLang.Proofs.Interpreter.Combinators
import PushLang.Proofs.Interpreter.Repetition
import PushLang.Proofs.Interpreter.Frames
import PushLang.Proofs.Program.Points
import PushLang.Proofs.Program.Replacement
import PushLang.Proofs.Safety.Execution
import PushLang.Proofs.Interpreter.Forgetting
import PushLang.Proofs.InstructionSet.Leaves
import PushLang.Proofs.Program.Acceptance
import PushLang.Proofs.Program.Lines
import PushLang.Proofs.Breeding.Attempts
import PushLang.Proofs.Breeding.Mutation
import PushLang.Proofs.Interpreter.Nesting
import PushLang.Proofs.InstructionSet.Consistency
import PushLang.Proofs.InstructionSet.Listing
import PushLang.Proofs.InstructionSet.Labels
import PushLang.Proofs.Interpreter.Balance
import PushLang.Proofs.Program.Segments
import PushLang.Proofs.Breeding.Ceiling
import PushLang.Proofs.Breeding.Reversal
import PushLang.Proofs.Safety.Breeding
import PushLang.Proofs.Safety.Access
import PushLang.Proofs.Breeding.EqualCuts
import PushLang.Proofs.Breeding.Symmetry
import PushLang.Proofs.Interpreter.Interruption
import PushLang.Proofs.Interpreter.Accounting
import PushLang.Proofs.Interpreter.Operands
import PushLang.Proofs.Interpreter.DepthMoves
import PushLang.Proofs.Interpreter.Constancy
import PushLang.Proofs.Generation.Coverage
import PushLang.Proofs.Generation.Integer
import PushLang.Proofs.Breeding.FairSize
import PushLang.Proofs.Breeding.Selection
import PushLang.Proofs.Interpreter.RandomCode
import PushLang.Proofs.Interpreter.Inputs
import PushLang.Proofs.Generation.Splitting
import PushLang.Proofs.Fitness.Ideal
