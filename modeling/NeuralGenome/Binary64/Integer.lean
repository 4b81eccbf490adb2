import NeuralGenome.Binary64.Arithmetic

/-!
# Integers from binary64

Two conversions decide what a program and its network do.  `Binary64.toIndex`
reads a neuron index out of an operand: truncated toward zero, saturated to
thirty-two signed bits, and zero for what is not a number.  `Binary64.unitStep`
reads a grid step out of a signal: the nearest integer, halves upward, clamped
to one step either way.
-/

namespace NeuralGenome

namespace Binary64

/-- The integer part of a finite number, toward zero. -/
def truncated (x : Binary64) : Int :=
  x.quanta.tdiv quantaPerOne

/-- The greatest integer not above a finite number. -/
def floored (x : Binary64) : Int :=
  x.quanta / (quantaPerOne : Int)

/-! ## Neuron indexes -/

/-- The least index an operand can name. -/
def leastIndex : Int := -0x80000000

/-- The greatest index an operand can name. -/
def greatestIndex : Int := 0x7fffffff

/-- The pattern of `leastIndex`. -/
def leastIndexPattern : Binary64 := ⟨0xc1e0000000000000⟩

/-- The pattern of `greatestIndex`. -/
def greatestIndexPattern : Binary64 := ⟨0x41dfffffffc00000⟩

/-- The neuron index that an operand names. -/
def toIndex (x : Binary64) : Int :=
  if x.isNaN then 0
  else if greatestIndexPattern.atMost x then greatestIndex
  else if x.atMost leastIndexPattern then leastIndex
  else x.truncated

/-! ## Grid steps -/

/-- A number held between minus two and two. -/
def bounded (x : Binary64) : Binary64 :=
  let raised := if x.less minusTwo then minusTwo else x
  if two.less raised then two else raised

/-- The grid step that a signal asks for. -/
def unitStep (x : Binary64) : Int :=
  if x.isNaN then 0
  else max (-1) (min 1 (x.bounded.add half).floored)

/-- Whatever a signal is, also no number or infinite, it asks for a step. -/
theorem unitStep_between (x : Binary64) : -1 ≤ x.unitStep ∧ x.unitStep ≤ 1 := by
  rw [unitStep]
  split <;> omega

end Binary64

end NeuralGenome
