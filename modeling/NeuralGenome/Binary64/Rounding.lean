import NeuralGenome.Binary64.Basic

/-!
# Rounding to binary64

One rounding serves all arithmetic: a nonnegative ratio, counted in quanta, goes
to the nearest pattern and a tie goes to the even one.  The spacing of the
patterns around a ratio depends only on how many bits its whole part has, and
neighbouring patterns have neighbouring magnitudes, so the result is a sum of
two terms: the spacing's share of the magnitude and the rounded significand.
-/

namespace NeuralGenome

namespace Binary64

/-- The whole number nearest to a ratio; a tie goes to the even one. -/
def nearestEven (numerator denominator : Nat) : Nat :=
  let quotient := numerator / denominator
  let doubled := 2 * (numerator % denominator)
  if doubled < denominator then quotient
  else if denominator < doubled then quotient + 1
  else quotient + quotient % 2

/--
The exponent of the spacing of patterns around a value with this many whole
quanta: a significand holds fifty-three bits, and the bits beyond them are lost.
-/
def spacing (wholeQuanta : Nat) : Nat :=
  Nat.log2 wholeQuanta + 1 - 53

/--
The magnitude nearest to a ratio of quanta; what lies beyond the finite patterns
is infinite.
-/
def roundedMagnitude (numerator denominator : Nat) : Nat :=
  let exponent := spacing (numerator / denominator)
  min ((exponent <<< 52) + nearestEven numerator (denominator <<< exponent))
    infinityMagnitude

/-- The pattern nearest to a signed ratio of quanta. -/
def rounded (negative : Bool) (numerator denominator : Nat) : Binary64 :=
  ofMagnitude negative (roundedMagnitude numerator denominator)

/-- The pattern nearest to an integer, unless that is infinite. -/
def ofInt? (value : Int) : Option Binary64 :=
  let nearest := rounded (decide (value < 0)) (value.natAbs * quantaPerOne) 1
  if nearest.isInfinite then none else some nearest

end Binary64

end NeuralGenome
