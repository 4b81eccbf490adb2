import Mathlib.Algebra.Order.Round
import Mathlib.Data.Rat.Floor
import NeuralGenome.Proofs.Binary64.Nearest

/-!
# Grid steps and the nearest integer

A grid step is found by adding one half to a signal and cutting the sum
downward.  For exact numbers that is rounding to the nearest integer, halves
upward.  But the sum is itself rounded: from the greatest pattern below one half
it lies midway between one and the pattern before one, and the even one of them
is one.  At this pattern, and at no other, the step is not the nearest.  Steps
still grow with the signals.
-/

namespace NeuralGenome

namespace Binary64

/-! ## The nearest step -/

/-- The number that a finite pattern stands for. -/
def value (x : Binary64) : ℚ :=
  x.quanta / quantaPerOne

/--
The integer nearest to a number, halves upward, held within one step either way.
-/
def nearestStep (x : Binary64) : Int :=
  if x.isNaN then 0
  else if x.isInfinite then (if x.isNegative then -1 else 1)
  else max (-1) (min 1 (round x.value))

/-- Minus one half. -/
def minusHalf : Binary64 := ⟨0xbfe0000000000000⟩

/-- The greatest pattern below one half. -/
def belowHalf : Binary64 := ⟨0x3fdfffffffffffff⟩

theorem quanta_half : 2 * half.quanta = quantaPerOne := by decide +kernel

theorem quanta_minusHalf : minusHalf.quanta = -half.quanta := by decide +kernel

/-- In quanta, the nearest integer is a quotient that is cut downward. -/
theorem round_value (x : Binary64) :
    round x.value = (x.quanta + half.quanta) / quantaPerOne := by
  have positive : (quantaPerOne : ℚ) ≠ 0 :=
    Nat.cast_ne_zero.mpr (Nat.ne_of_gt quantaPerOne_pos)
  have halved : (1 / 2 : ℚ) = half.quanta / quantaPerOne := by
    rw [eq_div_iff positive, ← Int.cast_natCast quantaPerOne, ← quanta_half]
    push_cast
    ring
  rw [round_eq, value, halved, ← add_div, ← Int.cast_add,
    Rat.floor_intCast_div_natCast]

section Clamped

variable {quanta : Int}

theorem clamped_eq_one_iff :
    max (-1) (min 1 (quanta / quantaPerOne)) = 1 ↔
      (quantaPerOne : Int) ≤ quanta := by
  have positive : (0 : Int) < quantaPerOne :=
    Int.natCast_pos.mpr quantaPerOne_pos
  rw [← Int.one_mul (quantaPerOne : Int), ← Int.le_ediv_iff_mul_le positive,
    Int.one_mul]
  omega

theorem clamped_eq_neg_one_iff :
    max (-1) (min 1 (quanta / quantaPerOne)) = -1 ↔ quanta < 0 := by
  have positive : (0 : Int) < quantaPerOne :=
    Int.natCast_pos.mpr quantaPerOne_pos
  have sign := Int.ediv_nonneg_iff_of_pos (a := quanta) positive
  omega

end Clamped

section Steps

variable {x y : Binary64}

theorem rank_minusTwo : minusTwo.rank = -0x4000000000000000 := by decide

theorem rank_two : two.rank = 0x4000000000000000 := by decide

theorem rank_half : half.rank = 0x3fe0000000000000 := by decide

theorem rank_minusHalf : minusHalf.rank = -0x3fe0000000000000 := by decide

theorem rank_belowHalf : belowHalf.rank = 0x3fdfffffffffffff := by decide

/-- The nearest step is upward exactly from one half on. -/
theorem nearestStep_eq_one_iff (number : x.isNaN = false) :
    x.nearestStep = 1 ↔ half.atMost x := by
  rw [atMost_eq (by decide) number, decide_eq_true_iff, nearestStep, number,
    if_neg Bool.false_ne_true]
  by_cases infinite : x.isInfinite
  · rw [if_pos infinite]
    rw [isInfinite, beq_iff_eq, infinityMagnitude] at infinite
    rw [rank_half, rank, infinite]
    cases x.isNegative <;> decide
  · rw [if_neg infinite, round_value, clamped_eq_one_iff, ← quanta_half,
      ← quanta_le_quanta_iff]
    omega

/-- The nearest step is downward exactly below minus one half. -/
theorem nearestStep_eq_neg_one_iff (number : x.isNaN = false) :
    x.nearestStep = -1 ↔ x.less minusHalf := by
  rw [less_eq number (by decide), decide_eq_true_iff, nearestStep, number,
    if_neg Bool.false_ne_true]
  by_cases infinite : x.isInfinite
  · rw [if_pos infinite]
    rw [isInfinite, beq_iff_eq, infinityMagnitude] at infinite
    rw [rank_minusHalf, rank, infinite]
    cases x.isNegative <;> decide
  · rw [if_neg infinite, round_value, clamped_eq_neg_one_iff, ← Int.not_le,
      ← Int.not_le, ← quanta_le_quanta_iff, quanta_minusHalf]
    omega

theorem nearestStep_between (x : Binary64) :
    -1 ≤ x.nearestStep ∧ x.nearestStep ≤ 1 := by
  rw [nearestStep]
  split
  · omega
  · split
    · split <;> omega
    · omega

/-! ## The sum with one half -/

/-- A number is held between minus two and two, where it is finite. -/
theorem rank_bounded (number : x.isNaN = false) :
    x.bounded.magnitude < infinityMagnitude ∧
      x.bounded.rank = min (max x.rank minusTwo.rank) two.rank := by
  have lower : (if x.less minusTwo then minusTwo else x).isNaN = false ∧
      (if x.less minusTwo then minusTwo else x).rank =
        max x.rank minusTwo.rank := by
    rw [less_eq number (by decide)]
    by_cases below : x.rank < minusTwo.rank
    · rw [decide_eq_true below, if_pos rfl]
      exact ⟨by decide, by omega⟩
    · rw [decide_eq_false below, if_neg Bool.false_ne_true]
      exact ⟨number, by omega⟩
  obtain ⟨raisedNumber, raised⟩ := lower
  have held : x.bounded.rank = min (max x.rank minusTwo.rank) two.rank := by
    rw [bounded, less_eq (by decide) raisedNumber, raised]
    by_cases above : two.rank < max x.rank minusTwo.rank
    · rw [decide_eq_true above, if_pos rfl]
      omega
    · rw [decide_eq_false above, if_neg Bool.false_ne_true, raised]
      omega
  refine ⟨?_, held⟩
  rw [rank_minusTwo, rank_two] at held
  rw [infinityMagnitude]
  unfold rank at held
  split at held <;> omega

/-- The sum stays far from infinity. -/
theorem roundedMagnitude_bounded_lt (number : x.isNaN = false) :
    roundedMagnitude (x.bounded.quanta + half.quanta).natAbs 1 <
      infinityMagnitude := by
  have held := (rank_bounded number).2
  have lower : minusTwo.quanta ≤ x.bounded.quanta :=
    quanta_le_of_rank_le (by rw [held, rank_minusTwo, rank_two]; omega)
  have upper : x.bounded.quanta ≤ two.quanta :=
    quanta_le_of_rank_le (by rw [held]; omega)
  rw [denotes_minusTwo.quanta] at lower
  rw [denotes_two.quanta] at upper
  have halved := quanta_half
  have exact : IsExact (3 * (quantaPerOne : Int)).natAbs :=
    isExact_integer (by decide)
  exact Nat.lt_of_le_of_lt (roundedMagnitude_mono (by omega))
    exact.roundedMagnitude_lt

/-- The sum is the pattern nearest to the exact one. -/
theorem approximates_step (number : x.isNaN = false) :
    (x.bounded.add half).Approximates (x.bounded.quanta + half.quanta) :=
  approximates_add (rank_bounded number).1 (by decide)
    (roundedMagnitude_bounded_lt number)

/-- The sum is negative if the exact one is. -/
theorem quanta_step_neg_iff (number : x.isNaN = false) :
    (x.bounded.add half).quanta < 0 ↔ x.bounded.quanta + half.quanta < 0 := by
  obtain ⟨-, sum⟩ :=
    quanta_add (rank_bounded number).1 (by decide)
      (roundedMagnitude_bounded_lt number)
  rw [sum]
  split
  case isTrue negative =>
    have some : 1 ≤ (x.bounded.quanta + half.quanta).natAbs := by omega
    have least := roundedMagnitude_mono some
    have one : roundedMagnitude 1 1 = 1 := by decide
    rw [one] at least
    have something := quantaOfMagnitude_strictMono least
    omega
  case isFalse => omega

/--
The sum reaches one if it is not less than that of the greatest pattern below
one half.
-/
theorem one_le_quanta_step_iff (number : x.isNaN = false) :
    (quantaPerOne : Int) ≤ (x.bounded.add half).quanta ↔
      belowHalf.quanta ≤ x.bounded.quanta := by
  obtain ⟨-, sum⟩ :=
    quanta_add (rank_bounded number).1 (by decide)
      (roundedMagnitude_bounded_lt number)
  have whole : (quantaPerOne : Int) =
      quantaOfMagnitude one.magnitude := by decide +kernel
  have something : 0 < quantaOfMagnitude one.magnitude := by decide +kernel
  have positive : 0 < belowHalf.quanta + half.quanta := by decide +kernel
  -- midway between one and the pattern before it, one is the even pattern
  have tie : roundedMagnitude (belowHalf.quanta + half.quanta).natAbs 1 =
      one.magnitude := by
    decide +kernel
  have beneath :
      roundedMagnitude (belowHalf.quanta + half.quanta - 1).natAbs 1 <
        one.magnitude := by decide +kernel
  rw [sum, whole]
  constructor
  · intro reaches
    refine Int.not_lt.mp fun less => ?_
    split at reaches
    case isTrue => omega
    case isFalse =>
      have smaller : (x.bounded.quanta + half.quanta).natAbs ≤
          (belowHalf.quanta + half.quanta - 1).natAbs := by omega
      have short := quantaOfMagnitude_strictMono
        (Nat.lt_of_le_of_lt (roundedMagnitude_mono smaller) beneath)
      omega
  · intro reaches
    have greater : (belowHalf.quanta + half.quanta).natAbs ≤
        (x.bounded.quanta + half.quanta).natAbs := by omega
    have rounded := roundedMagnitude_mono greater
    rw [tie] at rounded
    have long := quantaOfMagnitude_strictMono.monotone rounded
    rw [if_neg (by omega)]
    omega

/-! ## Steps -/

theorem unitStep_eq_neg_one_iff (number : x.isNaN = false) :
    x.unitStep = -1 ↔ x.less minusHalf := by
  have held := (rank_bounded number).2
  rw [unitStep, number, if_neg Bool.false_ne_true, floored,
    clamped_eq_neg_one_iff, quanta_step_neg_iff number,
    less_eq number (by decide), decide_eq_true_iff]
  calc x.bounded.quanta + half.quanta < 0
      ↔ ¬minusHalf.quanta ≤ x.bounded.quanta := by
        rw [quanta_minusHalf]
        omega
    _ ↔ x.rank < minusHalf.rank := by
        rw [quanta_le_quanta_iff, held, rank_minusTwo, rank_two, rank_minusHalf]
        omega

theorem unitStep_eq_one_iff (number : x.isNaN = false) :
    x.unitStep = 1 ↔ belowHalf.rank ≤ x.rank := by
  have held := (rank_bounded number).2
  rw [unitStep, number, if_neg Bool.false_ne_true, floored, clamped_eq_one_iff,
    one_le_quanta_step_iff number, quanta_le_quanta_iff, held, rank_minusTwo,
    rank_two, rank_belowHalf]
  omega

/-- A rank that is positive belongs to one pattern. -/
theorem eq_belowHalf_of_rank_eq (same : x.rank = belowHalf.rank) :
    x = belowHalf := by
  rw [rank_belowHalf] at same
  have bits : x.bits.toNat = 0x3fdfffffffffffff := by
    unfold rank magnitude isNegative at same
    have small := x.bits.toNat_lt
    split at same
    case isTrue => omega
    case isFalse positive =>
      rw [decide_eq_true_iff] at positive
      omega
  have equal : x.bits = belowHalf.bits := UInt64.toNat_inj.mp bits
  cases x
  exact congrArg mk equal

/-- The step is the nearest one, but for one pattern. -/
theorem unitStep_eq (x : Binary64) :
    x.unitStep = if x = belowHalf then 1 else x.nearestStep := by
  cases number : x.isNaN with
  | true =>
      have other : x ≠ belowHalf := by
        rintro rfl
        cases number
      rw [if_neg other, unitStep, nearestStep, number]
      rfl
  | false =>
      have up := unitStep_eq_one_iff number
      split
      case isTrue same => rw [up, same]
      case isFalse other =>
        have apart : x.rank ≠ belowHalf.rank :=
          fun same => other (eq_belowHalf_of_rank_eq same)
        have upToo := nearestStep_eq_one_iff number
        rw [atMost_eq (by decide) number, decide_eq_true_iff, rank_half]
          at upToo
        rw [rank_belowHalf] at up apart
        have down := unitStep_eq_neg_one_iff number
        rw [← nearestStep_eq_neg_one_iff number] at down
        have range := unitStep_between x
        have rangeToo := nearestStep_between x
        omega

theorem unitStep_mono (ordered : x.atMost y) : x.unitStep ≤ y.unitStep := by
  rw [atMost, Bool.and_eq_true, Bool.and_eq_true, decide_eq_true_iff,
    Bool.not_eq_true', Bool.not_eq_true'] at ordered
  obtain ⟨⟨number, numberToo⟩, ordered⟩ := ordered
  have up := unitStep_eq_one_iff number
  have upToo := unitStep_eq_one_iff numberToo
  have down := unitStep_eq_neg_one_iff number
  have downToo := unitStep_eq_neg_one_iff numberToo
  rw [less_eq number (by decide), decide_eq_true_iff] at down
  rw [less_eq numberToo (by decide), decide_eq_true_iff] at downToo
  have range := unitStep_between x
  have rangeToo := unitStep_between y
  omega

/--
Grid steps are settled for all patterns.  What is not a number asks for no step.
Any other signal asks for the nearest integer, halves upward, held within one
step either way, which is upward from one half on and downward below minus one
half; but the greatest pattern below one half asks for an upward step.  The sum
on which this rests is the pattern nearest to the exact sum, the even one of
two.  A greater signal never asks for a lesser step.
-/
theorem step_is_nearest_but_once (x : Binary64) :
    x.unitStep = (if x = belowHalf then 1 else x.nearestStep) ∧
      (x.isNaN = true → x.nearestStep = 0) ∧
      (x.isNaN = false →
        (x.nearestStep = 1 ↔ half.atMost x) ∧
          (x.nearestStep = -1 ↔ x.less minusHalf) ∧
          (x.bounded.add half).Approximates (x.bounded.quanta + half.quanta)) ∧
      ∀ y : Binary64, x.atMost y → x.unitStep ≤ y.unitStep := by
  refine ⟨unitStep_eq x, fun number => ?_, fun number => ?_, fun y =>
    unitStep_mono⟩
  · rw [nearestStep, number]
    rfl
  · exact ⟨nearestStep_eq_one_iff number, nearestStep_eq_neg_one_iff number,
      approximates_step number⟩

/-- The step of the greatest pattern below one half is not the nearest one. -/
theorem step_beyond_nearest :
    belowHalf.isNaN = false ∧ half.atMost belowHalf = false ∧
      belowHalf.nearestStep = 0 ∧
      belowHalf.unitStep = 1 := by
  refine ⟨by decide, by decide, ?_, ?_⟩
  · have up := nearestStep_eq_one_iff (x := belowHalf) (by decide)
    have down := nearestStep_eq_neg_one_iff (x := belowHalf) (by decide)
    have range := nearestStep_between belowHalf
    have notUp : half.atMost belowHalf = false := by decide
    have notDown : belowHalf.less minusHalf = false := by decide
    rw [notUp] at up
    rw [notDown] at down
    simp only [Bool.false_eq_true, iff_false] at up down
    omega
  · rw [unitStep_eq, if_pos rfl]

/--
Minus one half stays, the pattern below it is a step down, and the two are
ordered.
-/
theorem step_is_nearest_but_once_downward :
    let beneath : Binary64 := ⟨0xbfe0000000000001⟩
    beneath.isNaN = false ∧ minusHalf.isNaN = false ∧ beneath.atMost minusHalf ∧
      beneath.unitStep = -1 ∧ beneath.unitStep ≤ minusHalf.unitStep ∧
      (minusHalf.bounded.add half).Approximates
        (minusHalf.bounded.quanta + half.quanta) := by
  intro beneath
  obtain ⟨step, -, settled, grows⟩ := step_is_nearest_but_once beneath
  obtain ⟨-, -, settledToo, -⟩ := step_is_nearest_but_once minusHalf
  obtain ⟨-, down, -⟩ := settled (by decide)
  have other : beneath ≠ belowHalf := by decide
  rw [if_neg other, down.mpr (by decide)] at step
  exact ⟨by decide, by decide, by decide, step, grows minusHalf (by decide),
    (settledToo (by decide)).2.2⟩

end Steps

end Binary64

end NeuralGenome
