import NeuralGenome.Binary64.Integer
import NeuralGenome.Fault

/-!
# Numeric arguments

Whoever drives a reader of programs may name a number as an integer of any size
or as a binary64 pattern.  Both conversions below can fail: an integer may lie
beyond the finite patterns, and a pattern may be no finite number.
-/

namespace NeuralGenome

/--
A pattern that stands for a real number, or the fault of standing for none.
-/
def Binary64.checkFinite (value : Binary64) : Except Fault Binary64 :=
  if value.isNaN then .error .notANumber
  else if value.isInfinite then .error .infiniteNumber
  else .ok value

/-- A number as it is given to an operation. -/
inductive Number where
  | integer (value : Int)
  | pattern (value : Binary64)
deriving DecidableEq

namespace Number

/-- The nearest pattern of a number. -/
def toBinary64 : Number → Except Fault Binary64
  | integer value =>
      match Binary64.ofInt? value with
      | some nearest => .ok nearest
      | none => .error .integerTooLarge
  | pattern value => .ok value

/--
A number as text: an integer without a point, a pattern in the standard style.
-/
def text : Number → String
  | integer value => toString value
  | pattern value => value.text

/-- The integer part of a number, toward zero. -/
def toInt : Number → Except Fault Int
  | integer value => .ok value
  | pattern value => do return (← value.checkFinite).truncated

@[simp]
theorem toBinary64_pattern (value : Binary64) :
    (pattern value).toBinary64 = .ok value := rfl

/-- An integer has its nearest pattern unless that is infinite. -/
theorem toBinary64_integer (value : Int) :
    (integer value).toBinary64 =
      (Binary64.ofInt? value).elim (.error .integerTooLarge) .ok := by
  -- for any conversion, so that the rounding itself is not unfolded
  have converted (nearest : Int → Option Binary64) :
      (match integer value with
        | integer value =>
            match nearest value with
            | some nearest => .ok nearest
            | none => .error .integerTooLarge
        | pattern value => .ok value : Except Fault Binary64) =
          (nearest value).elim (.error .integerTooLarge) .ok := by
    cases found : nearest value <;> simp only [found] <;> rfl
  exact (toBinary64.eq_def (integer value)).trans (converted Binary64.ofInt?)

theorem toBinary64_of_some {value : Int} {nearest : Binary64}
    (near : Binary64.ofInt? value = some nearest) :
    (integer value).toBinary64 = .ok nearest := by
  rw [toBinary64_integer, near]
  rfl

theorem toBinary64_of_none {value : Int} (far : Binary64.ofInt? value = none) :
    (integer value).toBinary64 = .error .integerTooLarge := by
  rw [toBinary64_integer, far]
  rfl

@[simp]
theorem toInt_integer (value : Int) : (integer value).toInt = .ok value := rfl

/-- The pattern that an unsigned number of sixty-four bits spells. -/
def patternOfBits (bits : Int) : Except Fault Binary64 :=
  if bits < 0 then .error .negativePattern
  else if 0x10000000000000000 ≤ bits then .error .oversizedPattern
  else .ok ⟨UInt64.ofNat bits.toNat⟩

end Number

end NeuralGenome
