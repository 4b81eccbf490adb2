import NeuralGenome.Number

/-!
# Probabilities

A probability is a number from zero to one, and the type keeps it there.  A draw
falls under a probability when it is less, so nothing falls under zero and every
draw below one falls under one.
-/

namespace NeuralGenome

/-- A number from zero to one. -/
structure Probability where
  value : Binary64
  isProper : (Binary64.zero.atMost value && value.atMost Binary64.one) = true
deriving DecidableEq

namespace Probability

/-- The probability of a number; what is not within zero and one is refused. -/
def ofNumber (number : Number) : Except Fault Probability := do
  let value ← number.toBinary64
  if proper : (Binary64.zero.atMost value && value.atMost Binary64.one) =
    true then
    return ⟨value, proper⟩
  else throw (.probabilityRange value)

/-- One in a hundred, the default. -/
def hundredth : Probability :=
  ⟨⟨0x3f847ae147ae147b⟩, by decide⟩

/-- Whether a draw falls under a probability. -/
def covers (probability : Probability) (draw : Binary64) : Bool :=
  draw.less probability.value

end Probability

end NeuralGenome
