import NeuralGenome.Fault
import NeuralGenome.Random.Permuted
import NeuralGenome.Random.Script

/-!
# Generators

A generator is a script or a seeded sequence.  Seeds are integers that are not
negative.
-/

namespace NeuralGenome

/-- One of the two ways in which draws are made. -/
inductive Generator where
  | scripted (script : Script)
  | seeded (sequence : Permuted)
deriving DecidableEq

namespace Generator

/-- The generator of a seed. -/
def ofSeed (seed : Int) : Except Fault Generator :=
  if seed < 0 then .error .negativeSeed
  else .ok (.seeded (Permuted.ofSeed seed.toNat))

instance : DrawSource Generator where
  next
    | scripted script => (DrawSource.next script).map id scripted
    | seeded sequence => (DrawSource.next sequence).map id seeded
  nextPair length
    | scripted script =>
        ((DrawSource.nextPair length).run script).map id scripted
    | seeded sequence =>
        ((DrawSource.nextPair length).run sequence).map id seeded

end Generator

end NeuralGenome
