import NeuralGenome.Binary64.Basic

/-!
# Shortest decimals

`Decimal.shortest` finds the decimal with the fewest digits that reads back as a
given positive magnitude, and of those the nearest to it.  A decimal reads back
when it lies in the interval of numbers that round to the magnitude; the ends of
the interval are halfway to the neighbouring magnitudes and belong to it when
the magnitude is even.  All comparisons are exact, in halves of a quantum.
-/

namespace NeuralGenome

/-- The decimal `digits * 10 ^ exponent`. -/
structure Decimal where
  digits : Nat
  exponent : Int
deriving DecidableEq

namespace Decimal

open Binary64 (quantaOfMagnitude quantaPerOne)

/-- How many decimal digits a number has. -/
def digitCount (number : Nat) : Nat :=
  (Nat.toDigits 10 number).length

/--
The power of ten that divides out of a decimal when its exponent is negative.
-/
def divisor (exponent : Int) : Nat :=
  Nat.pow 10 (-exponent).toNat

/-- The power of ten that multiplies a decimal when its exponent is positive. -/
def multiplier (exponent : Int) : Nat :=
  Nat.pow 10 exponent.toNat

/-- Whether a decimal reads back as a positive magnitude. -/
def readsBack (magnitude : Nat) (decimal : Decimal) : Bool :=
  let point := 2 * quantaPerOne * decimal.digits * multiplier decimal.exponent
  let below := quantaOfMagnitude (magnitude - 1) + quantaOfMagnitude magnitude
  let above := quantaOfMagnitude magnitude + quantaOfMagnitude (magnitude + 1)
  let low := below * divisor decimal.exponent
  let high := above * divisor decimal.exponent
  if magnitude % 2 = 0 then low ≤ point && point ≤ high
  else low < point && point < high

/-- The power of ten of the leading digit of a positive magnitude. -/
def leadingExponent (magnitude : Nat) : Int :=
  digitCount (quantaOfMagnitude magnitude * Nat.pow 10 342 / quantaPerOne) - 343

/--
The decimal of a given number of digits that reads back as a positive magnitude.

Only the two neighbours of the exact value on that grid can be nearest; of two
that read back the nearer is taken, and of two equally near the even one.
-/
def ofDigitCount? (magnitude count : Nat) : Option Decimal :=
  let exponent := leadingExponent magnitude + 1 - count
  let numerator := quantaOfMagnitude magnitude * divisor exponent
  let denominator := quantaPerOne * multiplier exponent
  let lower : Decimal := ⟨numerator / denominator, exponent⟩
  let upper : Decimal := ⟨numerator / denominator + 1, exponent⟩
  match readsBack magnitude lower, readsBack magnitude upper with
  | true, false => some lower
  | false, true => some upper
  | false, false => none
  | true, true =>
      let doubled := 2 * (numerator % denominator)
      if doubled < denominator ||
        (doubled = denominator && lower.digits % 2 = 0) then some lower
      else some upper

/--
The decimal with the fewest digits that reads back as a positive magnitude.
-/
def shortest (magnitude : Nat) : Decimal :=
  ((List.range 17).findSome? fun count =>
    ofDigitCount? magnitude (count + 1)).getD
    ⟨quantaOfMagnitude magnitude, -1074⟩

end Decimal

end NeuralGenome
