import NeuralGenome.Genome.Program
import NeuralGenome.Procedure

/-!
# Recording calls

A recorder turns each call back into a gene.  Both indexes and values become
operands, so a call whose number has no finite pattern cannot be recorded.  What
has been recorded is a program.
-/

namespace NeuralGenome

namespace Recorder

/-- The gene of a call. -/
def gene (call : NumericCall) : Except Fault Gene :=
  call.convert (fun index => (Number.integer index).toBinary64)
    Number.toBinary64

/-- Record a call at the end of a program. -/
def record (call : NumericCall) : Procedure Program Unit := do
  let gene ← Procedure.ofExcept (gene call)
  modify (· ++ [gene])

/-- Record calls in order. -/
def recordAll : List NumericCall → Procedure Program Unit
  | [] => pure ()
  | call :: rest => do
      record call
      recordAll rest

end Recorder

/--
The program that is recorded when a program is received: indexes are cut to
integers.
-/
def Program.recorded (program : Program) : Except Fault Program :=
  let (outcome, recorded) :=
    (Recorder.recordAll (program.calls.map Call.numeric)).run []
  outcome.map fun _ => recorded

end NeuralGenome
