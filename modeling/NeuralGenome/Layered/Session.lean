import NeuralGenome.Layered.Programmer
import NeuralGenome.ListPosition

/-!
# Programming sessions

A session is one programmer together with the layers and sums made so far.
Operations name layers and sums by their positions among them, which may count
from the end, so that a whole session is a list of operations.  A failing
operation leaves what it has written and changes no layer.
-/

namespace NeuralGenome

/--
A programmer with its layers and sums, in the order in which they were made.
-/
structure Session where
  programmer : Programmer
  layers : List Layer
  sums : List Int
deriving DecidableEq

namespace Session

/-- What can be done in a session. -/
inductive Operation where
  /-- Make an empty layer. -/
  | emptyLayer
  /-- Make a layer of given neurons. -/
  | newLayer (neurons : List Int)
  /-- Extend a layer by the horizontal input. -/
  | x (layer : Int)
  /-- Extend a layer by the vertical input. -/
  | y (layer : Int)
  /-- Extend a layer by a constant. -/
  | constant (layer : Int) (signal : Number)
  /-- Extend a layer by a random neuron. -/
  | random (layer : Int)
  /-- Make the layer of weighted sums over a layer. -/
  | weighted (layer : Int) (weights : List Number)
  /-- Make a sum of a layer. -/
  | sum (layer : Int)
  /-- Let a sum answer for an axis. -/
  | assign (output : Output) (sum : Int)
  /-- Count the neurons of a layer. -/
  | count (layer : Int)
  /-- Take the number of the next neuron. -/
  | allocate
  /-- Show the program. -/
  | program
deriving DecidableEq

/-- What an operation answers with. -/
inductive Answer where
  | layer (neurons : Layer)
  | number (value : Int)
  | program (program : Program)
  | done
deriving DecidableEq

/-- A session in which nothing has been done. -/
def initial : Session :=
  ⟨.initial, [], []⟩

/-- Let the programmer of a session work. -/
def program {Value : Type} (procedure : Procedure Programmer Value) :
    Procedure Session Value :=
  procedure.within Session.programmer fun programmer session =>
    { session with programmer := programmer }

/-- Find a layer. -/
def layer (position : Int) : Procedure Session Layer := do
  Procedure.ofExcept (ListPosition.find (← get).layers position)

/-- Find the neuron of a sum. -/
def sumNeuron (position : Int) : Procedure Session Int := do
  Procedure.ofExcept (ListPosition.find (← get).sums position)

/-- Put a layer in the place of another. -/
def replace (position : Int) (layer : Layer) : Procedure Session Answer := do
  let place ← Procedure.ofExcept
    (ListPosition.locate (← get).layers.length position)
  modify fun session =>
    { session with layers := session.layers.set place layer }
  return .layer layer

/-- Add a layer as the last. -/
def addLayer (layer : Layer) : Procedure Session Answer := do
  modify fun session => { session with layers := session.layers ++ [layer] }
  return .layer layer

/-- Perform one operation. -/
def perform : Operation → Procedure Session Answer
  | .emptyLayer => addLayer []
  | .newLayer neurons => addLayer neurons
  | .x position => do replace position (Programmer.withX (← layer position))
  | .y position => do replace position (Programmer.withY (← layer position))
  | .constant position signal => do
      replace position
        (← program (Programmer.withConstant (← layer position) signal))
  | .random position => do
      replace position (← program (Programmer.withRandom (← layer position)))
  | .weighted position weights => do
      addLayer (← program (Programmer.weighted (← layer position) weights))
  | .sum position => do
      let neuron ← program (Programmer.sum (← layer position))
      modify fun session => { session with sums := session.sums ++ [neuron] }
      return .number neuron
  | .assign output position => do
      program (Programmer.assign output (← sumNeuron position))
      return .done
  | .count position => return .number (← layer position).length
  | .allocate => return .number (← program Programmer.allocate)
  | .program => return .program (← get).programmer.program

end Session

end NeuralGenome
