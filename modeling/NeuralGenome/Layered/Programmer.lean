import NeuralGenome.Graph.Basic
import NeuralGenome.Reading.Recorder

/-!
# Layered programming

A layered programmer writes programs of layers.  It names neurons by their
numbers and keeps count itself: every created neuron takes the next number after
the two inputs.  A number is taken before the value is converted, so it stays
taken when a conversion fails.
-/

namespace NeuralGenome

/-- Neurons that feed a next layer, in order. -/
abbrev Layer :=
  List Int

/-- A program in the making and the number of the next neuron. -/
structure Programmer where
  program : Program
  nextNeuron : Int
deriving DecidableEq

namespace Programmer

/-- A programmer that has written nothing. -/
def initial : Programmer :=
  ⟨[], reservedNeurons⟩

/-- Take the number of the next neuron. -/
def allocate : Procedure Programmer Int := do
  let neuron := (← get).nextNeuron
  modify fun programmer => { programmer with nextNeuron := neuron + 1 }
  return neuron

/-- Write one call. -/
def write (call : NumericCall) : Procedure Programmer Unit :=
  (Recorder.record call).within Programmer.program
    fun program programmer => { programmer with program := program }

/-- Create a neuron and find its number. -/
def create (neuron : Neuron Number) : Procedure Programmer Int := do
  let number ← allocate
  write (.create neuron)
  return number

/-- Extend a layer by the horizontal input. -/
def withX (layer : Layer) : Layer :=
  layer ++ [(xNeuron : Int)]

/-- Extend a layer by the vertical input. -/
def withY (layer : Layer) : Layer :=
  layer ++ [(yNeuron : Int)]

/-- Extend a layer by a new constant. -/
def withConstant (layer : Layer) (signal : Number) :
    Procedure Programmer Layer := do
  return layer ++ [← create (.fixed signal)]

/-- Extend a layer by a new random neuron. -/
def withRandom (layer : Layer) : Procedure Programmer Layer := do
  return layer ++ [← create .random]

/-- A new weighted sum that reads one neuron. -/
def weightedChild (parent : Int) (weight : Number) :
    Procedure Programmer Int := do
  let child ← allocate
  write (.create (.weightedSum weight))
  write (.readFrom parent)
  return child

/--
The layer of one weighted sum for each neuron of a layer; there must be as many
weights.
-/
def weighted (layer : Layer) (weights : List Number) :
    Procedure Programmer Layer := do
  if weights.length = layer.length then
    (layer.zip weights).mapM fun (parent, weight) => weightedChild parent weight
  else throw (.weightCount layer.length weights.length)

/-- A new neuron that sums a layer. -/
def sum (layer : Layer) : Procedure Programmer Int := do
  let neuron ← create .sum
  layer.forM fun parent => write (.readFrom parent)
  return neuron

/-- Designate the neuron that answers for an axis. -/
def assign (output : Output) (neuron : Int) : Procedure Programmer Unit :=
  write (.assign output neuron)

end Programmer

end NeuralGenome
