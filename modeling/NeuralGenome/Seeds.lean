import NeuralGenome.Agent.Position
import NeuralGenome.Genome.Chromosome
import NeuralGenome.Layered.Programmer

/-!
# Seed programs

Most seeds are perceptrons over the input layer `x, y, 1, random, random`: one
layer of weighted sums is summed into the horizontal output and another into the
vertical one.  A weight on the constant gives a fixed move, weights on the
inputs head for a target, and weights on the random neurons give a random walk.
One further seed heads for a target through an explicit network of maxima and
minima.
-/

namespace NeuralGenome

namespace Seeds

/-- An integer weight. -/
def whole (value : Int) : Number :=
  .integer value

/-- Write a perceptron with one list of weights for each output. -/
def writePerceptrons (dxWeights dyWeights : List Number) :
    Procedure Programmer Unit := do
  let inputs := Programmer.withY (Programmer.withX [])
  let inputs ← Programmer.withConstant inputs (.pattern .one)
  let inputs ← Programmer.withRandom inputs
  let inputs ← Programmer.withRandom inputs
  let dx ← Programmer.sum (← Programmer.weighted inputs dxWeights)
  Programmer.assign .dx dx
  let dy ← Programmer.sum (← Programmer.weighted inputs dyWeights)
  Programmer.assign .dy dy

/-- The perceptron with one list of weights for each output. -/
def perceptrons (dxWeights dyWeights : List Number) : Except Fault Program :=
  let (outcome, programmer) :=
    (writePerceptrons dxWeights dyWeights).run .initial
  outcome.map fun _ => programmer.program

/-! ## Fixed moves -/

/-- Always makes the same move. -/
def constantMover (dx dy : Int) : Except Fault Program :=
  perceptrons [whole 0, whole 0, whole dx, whole 0, whole 0]
    [whole 0, whole 0, whole dy, whole 0, whole 0]

/-- Stays where it is. -/
def nonMover : Except Fault Program := constantMover 0 0

/-- Moves up. -/
def upMover : Except Fault Program := constantMover 0 (-1)

/-- Moves up and to the left. -/
def upLeftMover : Except Fault Program := constantMover (-1) (-1)

/-- Moves up and to the right. -/
def upRightMover : Except Fault Program := constantMover 1 (-1)

/-- Moves down. -/
def downMover : Except Fault Program := constantMover 0 1

/-- Moves down and to the left. -/
def downLeftMover : Except Fault Program := constantMover (-1) 1

/-- Moves down and to the right. -/
def downRightMover : Except Fault Program := constantMover 1 1

/-- Moves to the left. -/
def leftMover : Except Fault Program := constantMover (-1) 0

/-- Moves to the right. -/
def rightMover : Except Fault Program := constantMover 1 0

/-! ## Moves that depend on the position -/

/-- Heads for a target: each answer is the target less the position. -/
def positionMover (target : Position) : Except Fault Program :=
  perceptrons [whole (-1), whole 0, whole target.x, whole 0, whole 0]
    [whole 0, whole (-1), whole target.y, whole 0, whole 0]

/-- Heads for the center of a grid. -/
def centerMover (width height : Int) : Except Fault Program :=
  positionMover ⟨width.fdiv 2, height.fdiv 2⟩

/-- Moves away from the center of a grid. -/
def cornerMover (width height : Int) : Except Fault Program :=
  perceptrons [whole 1, whole 0, whole (-width.fdiv 2), whole 0, whole 0]
    [whole 0, whole 1, whole (-height.fdiv 2), whole 0, whole 0]

/-- Makes a random step on each axis: twice a draw, less one. -/
def randomMover : Except Fault Program :=
  perceptrons [whole 0, whole 0, whole (-1), whole 2, whole 0]
    [whole 0, whole 0, whole (-1), whole 0, whole 2]

/--
The calls that head for a target on one axis, with the first neuron they create.

The target less the input is raised to minus one at least and cut to one at
most.
-/
def axisCalls (output : Output) (input : Nat) (target : Int) (first : Int) :
    List NumericCall :=
  [.create (.fixed (whole target)),
    .create (.weightedSum (.pattern .minusOne)), .readFrom input,
    .create .sum, .readFrom (first + 1), .readFrom first,
    .create (.fixed (.pattern .minusOne)),
    .create .maximum, .readFrom (first + 3), .readFrom (first + 2),
    .create (.fixed (.pattern .one)),
    .create .minimum, .readFrom (first + 5), .readFrom (first + 4),
    .assign output (first + 6)]

/--
Heads for a target through maxima and minima; each axis takes seven neurons.
-/
def moveToward (target : Position) : Except Fault Program :=
  let calls :=
    axisCalls .dx xNeuron target.x 2 ++ axisCalls .dy yNeuron target.y 9
  let (outcome, program) := (Recorder.recordAll calls).run []
  outcome.map fun _ => program

end Seeds

end NeuralGenome
