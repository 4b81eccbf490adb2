/-!
# Words

Positions are held in words of sixty-four bits, with a sign.  An integer outside
that range names no position, and which fault it leads to depends on where it
was given.
-/

namespace NeuralGenome

namespace Word

/-- The least integer that fits a word. -/
def least : Int := -0x8000000000000000

/-- The greatest integer that fits a word. -/
def greatest : Int := 0x7fffffffffffffff

/-- Whether an integer fits a word. -/
def holds (value : Int) : Bool :=
  least ≤ value && value ≤ greatest

/-- Whether an integer fits a word that spends no bit on a sign. -/
def holdsUnsigned (value : Int) : Bool :=
  0 ≤ value && value ≤ 2 * greatest + 1

end Word

end NeuralGenome
