import NeuralGenome.Breeding.Crossover
import NeuralGenome.Breeding.Mutation
import NeuralGenome.Random.Generator

/-!
# Breeders

A breeder combines two parents and mutates the result.  Children of a population
are bred one after the other; for each of them the source first chooses two
parents, with replacement.  Children are not checked, so a mutation may leave
one undecodable.
-/

namespace NeuralGenome

/-- How children are made. -/
structure Breeder where
  reproduction : Reproduction
  mutation : Mutation
deriving DecidableEq

namespace Breeder

/-- The breeder that settings describe. -/
def ofSettings (settings : Settings) : Breeder :=
  ⟨settings.reproduction, .ofKind settings.mutation settings.probability⟩

/--
Prepare the breeder that settings describe; a seed in them starts the draws
anew.
-/
def prepare (settings : Settings) : Lab Generator Breeder := do
  match settings.seed with
  | some seed =>
      Lab.replaceSource (← Procedure.ofExcept (Generator.ofSeed seed))
  | none => pure ()
  Lab.note (.preparedBreeder settings.reproduction settings.mutation
    settings.seed)
  return ofSettings settings

variable {Source : Type} [DrawSource Source]

/-- The child of two parents. -/
def breed (breeder : Breeder) (first second : Chromosome) :
    Lab Source Chromosome := do
  let child ← breeder.reproduction.combine first second
  breeder.mutation.apply child

/-- One child of two parents that the source chooses. -/
def breedOne (breeder : Breeder) (parents : List Chromosome) :
    Lab Source Chromosome := do
  let (first, second) ← Lab.choosePair parents.length
  let first ← Procedure.ofExcept (ListPosition.find parents first)
  let second ← Procedure.ofExcept (ListPosition.find parents second)
  breeder.breed first second

/-- A number of children, one after the other. -/
def breedMany (breeder : Breeder) (parents : List Chromosome) :
    Nat → Lab Source (List Chromosome)
  | 0 => return []
  | count + 1 => do
      let child ← breeder.breedOne parents
      return child :: (← breeder.breedMany parents count)

/--
Breed a population; there must be parents and the count must not be negative.
-/
def breedPopulation (breeder : Breeder) (parents : List Chromosome)
    (count : Int) : Lab Source (List Chromosome) := do
  if parents.isEmpty then throw .noParents
  if count < 0 then throw (.negativeCount count)
  let children ← breeder.breedMany parents count.toNat
  Lab.note (.bredPopulation children.length parents.length
    (children.countP Chromosome.isDecodable))
  return children

end Breeder

end NeuralGenome
