import NeuralGenome.Breeding.Breeder

/-!
# Evolution

An evolution replaces a population by its children for a number of generations.
Children that do not compile are dropped; when none is left the evolution ends
with the population before them.
-/

namespace NeuralGenome

/-- Whether a fault says that a genome cannot be decoded or compiled. -/
def Fault.isGenetic : Fault → Bool
  | unknownTag _ _ | missingOutputs _ => true
  | _ => false

namespace Evolution

variable {Source : Type} [DrawSource Source]

/-- Keep the children that compile; the others are noted. -/
def survivors : List Chromosome → Lab Source (List Chromosome)
  | [] => return []
  | child :: rest => do
      match ← (Lab.createAgent child).attempt with
      | .ok _ => return child :: (← survivors rest)
      | .error fault =>
          if fault.isGenetic then
            Lab.note (.droppedChild
              (String.ofList (child.signature.toList.take 8)) fault)
            survivors rest
          else throw fault

/-- How many different genomes there are. -/
def distinct (chromosomes : List Chromosome) : Nat :=
  (chromosomes.map Chromosome.signature).eraseDups.length

/-- Go on for so many generations, from the generation of a given number. -/
def continueFrom (breeder : Breeder) (population : Int) (number : Nat)
    (parents : List Chromosome) : Nat → Lab Source (List Chromosome)
  | 0 => return parents
  | generations + 1 => do
      let children ← breeder.breedPopulation parents population
      let survivors ← survivors children
      Lab.note (.generation number survivors.length children.length
        (distinct survivors))
      if survivors.isEmpty then
        Lab.note .extinct
        return parents
      else continueFrom breeder population (number + 1) survivors generations

/-- Evolve founders for a number of generations. -/
def run (breeder : Breeder) (generations population : Int)
    (founders : List Chromosome) : Lab Source (List Chromosome) :=
  continueFrom breeder population 0 founders generations.toNat

end Evolution

end NeuralGenome
