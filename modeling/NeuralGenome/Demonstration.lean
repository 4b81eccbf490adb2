import NeuralGenome.Breeding.Evolution
import NeuralGenome.Reading.Description
import NeuralGenome.Reading.Weights
import NeuralGenome.Seeds

/-!
# Demonstrations

Four demonstrations show what genomes do: agents walk, a program is listed, a
perceptron is read back as layers, and seeds are bred.  Each notes its results
in the journal.
-/

namespace NeuralGenome

namespace Demonstration

/-! ## Walking -/

/-- The names and programs of the agents that walk. -/
def walkers : List (String × Except Fault Program) :=
  [("down_right", Seeds.downRightMover), ("up_left", Seeds.upLeftMover),
    ("toward (1, 9)", Seeds.moveToward ⟨1, 9⟩),
    ("center", Seeds.centerMover 10 11), ("random", Seeds.randomMover)]

/-- Make the agents of named programs. -/
def hire : List (String × Except Fault Program) →
    Lab Generator (List (String × Agent))
  | [] => return []
  | (name, program) :: rest => do
      let agent ← Lab.createAgent (.ofProgram (← Procedure.ofExcept program))
      return (name, agent) :: (← hire rest)

/-- Let an agent act with the draws of the bench. -/
def direct {Value : Type} (agent : Agent)
    (procedure : Procedure (Agent × Generator) Value) : Lab Generator Value :=
  procedure.within (fun bench => (agent, bench.source)) fun state bench =>
    { bench with source := state.2 }

/-- Let agents walk one after the other from the same place. -/
def walkAll (steps : Nat) :
    List (String × Agent) → Lab Generator (List (String × List Position))
  | [] => return []
  | (name, agent) :: rest => do
      let path ← direct agent (Agent.walk ⟨5, 5⟩ steps)
      Lab.note (.walked name path)
      return (name, path) :: (← walkAll steps rest)

/-- Hand-written agents walk from the middle of a grid. -/
def walk (steps seed : Int) :
    Lab Generator (List (String × List Position)) := do
  Lab.note (.heading "Seed agents walk")
  Lab.replaceSource (← Procedure.ofExcept (Generator.ofSeed seed))
  walkAll steps.toNat (← hire walkers)

/-! ## Reading programs -/

/-- The network of a program that heads for a target is listed. -/
def listing (target : Position) : Lab Generator String := do
  Lab.note (.heading "Program listing")
  let program ← Procedure.ofExcept (Seeds.moveToward target)
  Lab.note (.instructions (program.map Gene.describe))
  let listing := program.listing
  listing.lines.forM fun line => Lab.note (.listingLine line.text)
  return listing.text

/-- Note layers in order, the first at a given depth. -/
def noteLayers (depth : Nat) : List (List String) → Lab Generator Unit
  | [] => pure ()
  | layer :: rest => do
      Lab.note (.layer depth layer)
      noteLayers (depth + 1) rest

/-- A perceptron that heads for a target is read back as titled layers. -/
def layers (target : Position) : Lab Generator (List (List String)) := do
  Lab.note (.heading "Layered description")
  let program ← Procedure.ofExcept (Seeds.positionMover target)
  let description := program.description
  let titled := description.layers.map fun layer =>
    layer.map fun neuron : Nat => description.title neuron
  noteLayers 0 titled
  Lab.note (.collectedWeights program.weights)
  return titled

/-! ## Breeding -/

/-- The settings of the breeding demonstration where none are given. -/
def breedingSettings : Settings :=
  { Settings.standard with seed := some 0, mutation := .weights }

/-- The settings under which any bit may flip. -/
def bitSettings : Settings :=
  { Settings.standard with seed := some 0 }

/-- The seeds from which children are bred. -/
def founders : Except Fault (List Chromosome) := do
  return [.ofProgram (← Seeds.downRightMover), .ofProgram (← Seeds.upLeftMover),
    .ofProgram (← Seeds.centerMover 10 11), .ofProgram (← Seeds.randomMover)]

/-- Seeds are bred for some generations; those that remain are the result. -/
def breeding (generations population : Int) (settings : Settings) :
    Lab Generator (List Chromosome) := do
  Lab.note (.heading "Breeding")
  let breeder ← Breeder.prepare settings
  Evolution.run breeder generations population (← Procedure.ofExcept founders)

/-! ## All of them -/

/-- What all demonstrations together result in. -/
structure Results where
  walk : List (String × List Position)
  listing : String
  layers : List (List String)
  bits : List Chromosome
  weights : List Chromosome

/-- The target of the listing where none is given. -/
def listingTarget : Position := ⟨8, 1⟩

/-- The target of the layers where none is given. -/
def layersTarget : Position := ⟨3, 4⟩

/--
Every demonstration in turn; seeds are bred with any bits flipping, then with
weights only.
-/
def all (steps generations population : Int) : Lab Generator Results := do
  let walk ← walk steps 0
  let listing ← listing listingTarget
  let layers ← layers layersTarget
  let bits ← breeding generations population bitSettings
  let weights ← breeding generations population breedingSettings
  return { walk, listing, layers, bits, weights }

end Demonstration

end NeuralGenome
