import NeuralGenome.Agent.Basic
import NeuralGenome.Journal.Bench

/-!
# Noted decoding and compilation

At a bench, decoding notes a dropped fragment and compiling notes the size and
the outputs of the network.  Neither draws anything.
-/

namespace NeuralGenome

namespace Lab

variable {Source : Type}

/-- Decode a chromosome; a fragment at its end is noted. -/
def decode (chromosome : Chromosome) : Lab Source Program := do
  noteIf (!chromosome.fragment.isEmpty)
    (.droppedFragment chromosome.fragment.length chromosome.frameCount)
  Procedure.ofExcept chromosome.program

/-- Compile a graph; what is compiled is noted once both outputs are known. -/
def compile (graph : Graph) : Lab Source Network := do
  let (dx, dy) ← Procedure.ofExcept graph.outputs
  note (.compiledNetwork graph.count dx dy)
  Procedure.ofExcept graph.network

/-- Make the agent of a chromosome. -/
def createAgent (chromosome : Chromosome) : Lab Source Agent := do
  let program ← decode chromosome
  let graph ← Procedure.ofExcept program.graph
  let network ← compile graph
  Procedure.ofExcept (Agent.ofParts (some chromosome) (some network))

end Lab

end NeuralGenome
