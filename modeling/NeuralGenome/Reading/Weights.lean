import NeuralGenome.Genome.Program
import NeuralGenome.Procedure

/-!
# Weights

The weights of a program are those of its weighted sums, in the order of
creation.
-/

namespace NeuralGenome

namespace Weights

/-- The weight that a call creates, if it creates a weighted sum. -/
def ofCall? {Index Value : Type} : Instruction Index Value → Option Value
  | .create (.weightedSum weight) => some weight
  | _ => none

/-- Receive a call: keep its weight. -/
def receive (weights : List Binary64) (call : Call) : List Binary64 :=
  weights ++ (ofCall? call).toList

/-- Receive a call whose weight, if it has one, has to be converted first. -/
def receiveNumeric (call : NumericCall) : Procedure (List Binary64) Unit := do
  match ofCall? call with
  | some weight =>
      let weight ← Procedure.ofExcept weight.toBinary64
      modify (· ++ [weight])
  | none => pure ()

/-- Keep the weights of calls in order. -/
def receiveAll (weights : List Binary64) (calls : List Call) : List Binary64 :=
  calls.foldl receive weights

end Weights

/-- The weights of a program. -/
def Program.weights (program : Program) : List Binary64 :=
  Weights.receiveAll [] program.calls

end NeuralGenome
