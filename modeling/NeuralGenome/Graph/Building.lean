import NeuralGenome.Genome.Program
import NeuralGenome.Graph.Address
import NeuralGenome.Network.Basic

/-!
# Building graphs

The graph builder performs requests on a graph.  A created neuron is appended
and gets the cursor; the other requests resolve their address and change one
field.  `Graph.network?` turns a graph with both outputs into a network.
-/

namespace NeuralGenome

/-- An instruction for the graph builder. -/
abbrev Request :=
  Instruction Address Number

/-- The request that a call makes. -/
def Call.request (call : Call) : Request :=
  call.map .index .pattern

namespace Graph

/--
The list of inputs that the cursor designates, which may count from the end.
-/
def reader (graph : Graph) : Except Fault Nat :=
  ListPosition.locate graph.inputs.length graph.cursor

/--
Perform one request.

A creation converts its value before it appends, and a read finds the list under
the cursor before it resolves its address.
-/
def perform : Request → Procedure Graph Unit
  | .create neuron => do
      let neuron ← Procedure.ofExcept (neuron.convert Number.toBinary64)
      modify (·.append (neuron.definition .zero))
  | .moveTo address => do
      let index ← Procedure.ofExcept (address.resolve (← get))
      modify (·.place index)
  | .readFrom address => do
      let reader ← Procedure.ofExcept (← get).reader
      let index ← Procedure.ofExcept (address.resolve (← get))
      modify (·.link reader index)
  | .assign output address => do
      let index ← Procedure.ofExcept (address.resolve (← get))
      modify (·.designate output index)

/-- Perform requests in order. -/
def performAll : List Request → Procedure Graph Unit
  | [] => pure ()
  | request :: rest => do
      perform request
      performAll rest

/-- The outputs that no neuron answers for yet. -/
def missing (graph : Graph) : List Output :=
  Output.all.filter fun output => (graph.output output).isNone

/-- The neurons that answer for both axes. -/
def outputs (graph : Graph) : Except Fault (Int × Int) :=
  match graph.dx, graph.dy with
  | some dx, some dy => .ok (dx, dy)
  | _, _ => .error (.missingOutputs graph.missing)

/-- The network of a graph; both outputs must be designated. -/
def network (graph : Graph) : Except Fault Network := do
  let (dx, dy) ← graph.outputs
  Network.assemble graph.neurons graph.inputs dx dy

end Graph

namespace Program

/-- Build the graph of a program, from the graph of the two inputs alone. -/
def build (program : Program) : Except Fault Unit × Graph :=
  (Graph.performAll (program.calls.map Call.request)).run Graph.initial

/-- The graph of a program. -/
def graph (program : Program) : Except Fault Graph :=
  let (outcome, graph) := program.build
  outcome.map fun _ => graph

/-- The network of a program. -/
def network (program : Program) : Except Fault Network := do
  (← program.graph).network

end Program

end NeuralGenome
