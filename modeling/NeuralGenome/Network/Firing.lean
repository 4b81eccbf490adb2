import NeuralGenome.Binary64.Integer
import NeuralGenome.Network.Basic
import NeuralGenome.Random.Source

/-!
# Firing

A firing visits every neuron once, in ascending order, and stores its signal at
once.  So a neuron sees the new signals of the neurons before it and the old
signals of itself and of those after it.  Only sums, weighted sums, minima and
maxima look at their links; a link to no neuron stops the firing there and
leaves the later neurons as they were.
-/

namespace NeuralGenome

/--
The memory of a network and the source from which its random neurons draw.
-/
structure Activity (Source : Type) where
  memory : Memory
  source : Source

/--
The signal of a neuron that looks at its links, from the signals it reads.
-/
def Definition.combine (definition : Definition Binary64)
    (values : List Binary64) : Binary64 :=
  match definition.kind with
  | .sum => Binary64.sum values
  | .weightedSum => (Binary64.sum values).mul definition.parameter
  | .minimum => Binary64.minimum values
  | .maximum => Binary64.maximum values
  | .inputX | .inputY | .fixed | .random => definition.parameter

namespace LinkedNeuron

variable {Source : Type} [DrawSource Source]

/-- Find the new signal of a neuron. -/
def compute (neuron : LinkedNeuron) : Procedure (Activity Source) Binary64 :=
  match neuron.definition.kind with
  | .inputX => return (← get).memory.x
  | .inputY => return (← get).memory.y
  | .fixed => return neuron.definition.parameter
  | .random => Procedure.ofStep fun activity =>
      let (draw, source) := DrawSource.next activity.source
      (draw, { activity with source := source })
  | .sum | .weightedSum | .minimum | .maximum => do
      let values ← Procedure.ofExcept ((← get).memory.gather neuron.links)
      return neuron.definition.combine values

end LinkedNeuron

namespace Network

variable {Source : Type} [DrawSource Source]

/-- Fire neurons in order, the first of which has the given position. -/
def fireFrom (position : Nat) :
    List LinkedNeuron → Procedure (Activity Source) Unit
  | [] => pure ()
  | neuron :: rest => do
      let signal ← neuron.compute
      modify fun activity =>
        { activity with memory := activity.memory.store position signal }
      fireFrom (position + 1) rest

/-- Fire every neuron of a network once. -/
def fire (network : Network) : Procedure (Activity Source) Unit :=
  fireFrom 0 network.neurons

/-- The last signal of the neuron that answers for an axis. -/
def answer (network : Network) (memory : Memory) (output : Output) :
    Except Fault Binary64 :=
  memory.signal (network.output output)

end Network

end NeuralGenome
