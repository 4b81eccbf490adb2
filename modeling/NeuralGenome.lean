import NeuralGenome.Main
import NeuralGenome.Agent.Troupe
import NeuralGenome.Layered.Session
import NeuralGenome.Proofs.Graph.Edit
import NeuralGenome.Proofs.Graph.Soundness
import NeuralGenome.Proofs.Genome.Decoding
import NeuralGenome.Proofs.Graph.Compilation
import NeuralGenome.Proofs.Agent.Creation
import NeuralGenome.Proofs.Network.Pass
import NeuralGenome.Proofs.Graph.Calls
import NeuralGenome.Proofs.Reading.Agreement
import NeuralGenome.Proofs.Genome.Operand
import NeuralGenome.Proofs.Genome.Codec
import NeuralGenome.Proofs.Genome.Canonical
import NeuralGenome.Proofs.Breeding.Crossover
import NeuralGenome.Proofs.Breeding.WeightMutation
import NeuralGenome.Proofs.Breeding.Inheritance
import NeuralGenome.Proofs.Network.Series
import NeuralGenome.Proofs.Network.Dependence
import NeuralGenome.Proofs.Network.FiniteMemory
import NeuralGenome.Proofs.Agent.Deciding
import NeuralGenome.Proofs.Agent.Isolation
import NeuralGenome.Proofs.Graph.Values
import NeuralGenome.Proofs.Breeding.Homogeneity
import NeuralGenome.Proofs.Breeding.Survival
import NeuralGenome.Proofs.Agent.Interleaving
import NeuralGenome.Proofs.Binary64.Exact
import NeuralGenome.Proofs.Reading.Attribution
import NeuralGenome.Proofs.Reading.Replay
import NeuralGenome.Proofs.Layered.Blueprint
import NeuralGenome.Proofs.Layered.Writing
import NeuralGenome.Proofs.Layered.Handles
import NeuralGenome.Proofs.Layered.Meaning
import NeuralGenome.Proofs.Reading.Synapses
import NeuralGenome.Proofs.Reading.Layering
import NeuralGenome.Proofs.Breeding.Topology
import NeuralGenome.Proofs.Seeds.Heading
import NeuralGenome.Proofs.Seeds.Blind
import NeuralGenome.Proofs.Layered.Recovery
import NeuralGenome.Proofs.Reading.Exhaustion
import NeuralGenome.Proofs.Layered.Numbering
import NeuralGenome.Proofs.Genome.BitString
import NeuralGenome.Proofs.Breeding.BitMutation
import NeuralGenome.Proofs.Breeding.OperandMutation
import NeuralGenome.Proofs.Graph.ClosedForm
import NeuralGenome.Proofs.Reading.Congruence
import NeuralGenome.Proofs.Agent.Failures
import NeuralGenome.Proofs.Network.Frontier
import NeuralGenome.Proofs.Binary64.Nearest
import NeuralGenome.Proofs.Binary64.GridStep
import NeuralGenome.Proofs.Binary64.Saturation
import NeuralGenome.Proofs.Reading.Transcript
import NeuralGenome.Proofs.Graph.Refusals
import NeuralGenome.Proofs.Graph.Navigation
import NeuralGenome.Proofs.Random.Stream
import NeuralGenome.Proofs.Breeding.Schedule
