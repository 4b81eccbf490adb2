/-!
# Sets of code points

A set of code points is kept as the ascending list of the points at which
membership changes; a code point is a member when an odd number of them lie at
or below it.
-/

namespace NeuralGenome

/-- A set of code points, given by where membership changes. -/
structure CodePointSet where
  changes : Array Nat

/-- Whether a code point is in a set. -/
def CodePointSet.contains (set : CodePointSet) (codePoint : Nat) : Bool :=
  set.changes.foldl
    (fun inside change => if change ≤ codePoint then !inside else inside) false

end NeuralGenome
