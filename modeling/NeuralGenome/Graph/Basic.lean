import NeuralGenome.Network.Kind

/-!
# Graphs under construction

A graph is a network in the making.  Its neurons are numbered in the order of
creation, and the first two are the inputs.  Each neuron has a list of the
neurons it reads; the cursor stands on the neuron that the next read will
extend.  The fields are open to any values, so that a builder can also be set on
a graph that no program has made.
-/

namespace NeuralGenome

/-- The number of the neuron that carries the horizontal input. -/
def xNeuron : Nat := 0

/-- The number of the neuron that carries the vertical input. -/
def yNeuron : Nat := 1

/-- How many neurons exist before a program creates any. -/
def reservedNeurons : Nat := 2

/-- A network in the making. -/
structure Graph where
  neurons : List (Definition Number)
  inputs : List (List Int)
  cursor : Int
  dx : Option Int
  dy : Option Int
deriving DecidableEq

namespace Graph

/--
The graph before any instruction: the two inputs, with the cursor on the first.
-/
def initial : Graph where
  neurons := [⟨.inputX, .pattern .zero⟩, ⟨.inputY, .pattern .zero⟩]
  inputs := [[], []]
  cursor := 0
  dx := none
  dy := none

/-- How many neurons a graph has. -/
def count (graph : Graph) : Nat :=
  graph.neurons.length

/-- The definitions of the neurons, once every parameter has a pattern. -/
def definitions (graph : Graph) : Except Fault (List (Definition Binary64)) :=
  graph.neurons.mapM Definition.toBinary64

/-- The neuron that answers for an axis, once it is designated. -/
def output (graph : Graph) : Output → Option Int
  | .dx => graph.dx
  | .dy => graph.dy

/-- Append a neuron that reads nothing and move the cursor to it. -/
def append (graph : Graph) (definition : Definition Binary64) : Graph :=
  { graph with
    neurons := graph.neurons ++ [definition.numeric]
    inputs := graph.inputs ++ [[]]
    cursor := graph.count }

/-- Move the cursor. -/
def place (graph : Graph) (cursor : Int) : Graph :=
  { graph with cursor := cursor }

/-- Add a link at the end of one list of inputs. -/
def link (graph : Graph) (reader : Nat) (index : Int) : Graph :=
  { graph with inputs := graph.inputs.modify reader (· ++ [index]) }

/-- Designate the neuron that answers for an axis. -/
def designate (graph : Graph) (output : Output) (index : Int) : Graph :=
  match output with
  | .dx => { graph with dx := some index }
  | .dy => { graph with dy := some index }

@[simp]
theorem count_append (graph : Graph) (definition : Definition Binary64) :
    (graph.append definition).count = graph.count + 1 := by
  simp [append, count]

@[simp]
theorem count_place (graph : Graph) (cursor : Int) :
    (graph.place cursor).count = graph.count := rfl

@[simp]
theorem count_link (graph : Graph) (reader : Nat) (index : Int) :
    (graph.link reader index).count = graph.count := rfl

@[simp]
theorem count_designate (graph : Graph) (output : Output) (index : Int) :
    (graph.designate output index).count = graph.count := by
  cases output <;> rfl

end Graph

end NeuralGenome
