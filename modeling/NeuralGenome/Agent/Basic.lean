import NeuralGenome.Agent.Position
import NeuralGenome.Genome.Chromosome
import NeuralGenome.Graph.Building
import NeuralGenome.Network.Firing

/-!
# Agents

An agent is a chromosome with the network compiled from it and the memory of
that network. It decides a move by firing the network once with its position as
input and rounding both answers to a step of the grid.
-/

namespace NeuralGenome

/-- A controller on the grid. -/
structure Agent where
  chromosome : Chromosome
  network : Network
  memory : Memory
deriving DecidableEq

namespace Agent

/-- An agent from a chromosome and a network, both of which are required. -/
def ofParts (chromosome : Option Chromosome) (network : Option Network) :
    Except Fault Agent :=
  match chromosome, network with
  | none, _ => .error .missingChromosome
  | some _, none => .error .missingNetwork
  | some chromosome, some network =>
      .ok ⟨chromosome, network, .initial network.size⟩

/-- The agent of a chromosome: its program is decoded and compiled. -/
def create (chromosome : Chromosome) : Except Fault Agent := do
  let network ← (← chromosome.program).network
  ofParts (some chromosome) (some network)

variable {Source : Type} [DrawSource Source]

/-- Run a procedure on the memory of an agent. -/
def remember {Value : Type} (procedure : Procedure (Activity Source) Value) :
    Procedure (Agent × Source) Value :=
  procedure.within (fun state => ⟨state.1.memory, state.2⟩)
    fun activity state =>
      ({ state.1 with memory := activity.memory }, activity.source)

/-- The step that an agent's network asks for on an axis. -/
def step (agent : Agent) (output : Output) : Except Fault Int := do
  return (← agent.network.answer agent.memory output).unitStep

/-- Decide the next move from a position. -/
def decide (position : Position) : Procedure (Agent × Source) Move := do
  let network := (← get).1.network
  remember
    ((Memory.bind (.integer position.x) (.integer position.y)).within
      Activity.memory fun memory activity => { activity with memory := memory })
  remember network.fire
  let agent := (← get).1
  let dx ← Procedure.ofExcept (agent.step .dx)
  let dy ← Procedure.ofExcept (agent.step .dy)
  return ⟨dx, dy⟩

/-- Decide the next move and make it. -/
def advance (position : Position) : Procedure (Agent × Source) Position := do
  return position.move (← decide position)

/-- Make a number of moves; the path starts with the position itself. -/
def walk (position : Position) (steps : Nat) :
    Procedure (Agent × Source) (List Position) :=
  Procedure.trail advance position steps

end Agent

end NeuralGenome
