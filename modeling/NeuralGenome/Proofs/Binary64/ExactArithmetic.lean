import Mathlib.Algebra.BigOperators.Ring.List
import Mathlib.Data.List.Forall2
import Mathlib.Tactic.Ring
import NeuralGenome.Proofs.Binary64.Exact

/-!
# Arithmetic that needs no rounding

Rounding depends on the value of a ratio alone, and keeps a value that is exact.
So the sum and the product of finite patterns stand for the exact results, as
long as these are exact themselves.  Among integers of at most fifty-three bits
nothing is ever rounded: patterns that denote integers are added, multiplied,
compared and turned into grid steps as the integers are.
-/

namespace NeuralGenome

namespace Binary64

/-! ## Ratios -/

/-- The nearest whole number is that of the ratio, whatever it is counted in. -/
theorem nearestEven_mul_right (numerator denominator : Nat) {unit : Nat}
    (positive : 0 < unit) :
    nearestEven (numerator * unit) (denominator * unit) =
      nearestEven numerator denominator := by
  have doubled : 2 * (numerator % denominator * unit) =
      2 * (numerator % denominator) * unit :=
    (Nat.mul_assoc 2 _ unit).symm
  rw [nearestEven, nearestEven, Nat.mul_div_mul_right _ _ positive,
    Nat.mul_mod_mul_right, doubled]
  simp only [Nat.mul_lt_mul_right positive]

theorem roundedMagnitude_mul_right (numerator denominator : Nat) {unit : Nat}
    (positive : 0 < unit) :
    roundedMagnitude (numerator * unit) (denominator * unit) =
      roundedMagnitude numerator denominator := by
  have shifted (bits : Nat) :
      (denominator * unit) <<< bits = denominator <<< bits * unit := by
    rw [Nat.shiftLeft_eq, Nat.shiftLeft_eq, Nat.mul_right_comm]
  rw [roundedMagnitude, roundedMagnitude, Nat.mul_div_mul_right _ _ positive,
    shifted, nearestEven_mul_right _ _ positive]

/-- A ratio over the quanta of one is rounded as the count that it is. -/
theorem rounded_mul_quantaPerOne (negative : Bool) (count : Nat) :
    rounded negative (count * quantaPerOne) quantaPerOne =
      rounded negative count 1 := by
  have same := roundedMagnitude_mul_right count 1 quantaPerOne_pos
  rw [Nat.one_mul] at same
  rw [rounded, rounded, same]

/-! ## Finite patterns and their quanta -/

/-- A finite pattern and what it stands for, counted in quanta. -/
structure Counts (x : Binary64) (quanta : Int) : Prop where
  finite : x.magnitude < infinityMagnitude
  quanta : x.quanta = quanta

theorem isNaN_of_finite {x : Binary64}
    (finite : x.magnitude < infinityMagnitude) : x.isNaN = false :=
  decide_eq_false (Nat.not_lt.mpr (Nat.le_of_lt finite))

theorem isInfinite_of_finite {x : Binary64}
    (finite : x.magnitude < infinityMagnitude) : x.isInfinite = false :=
  beq_eq_false_iff_ne.mpr (Nat.ne_of_lt finite)

theorem lesser_of_numbers {x y : Binary64} (first : x.isNaN = false)
    (second : y.isNaN = false) : x.lesser y = if y.less x then y else x := by
  rw [lesser, first, second]
  rfl

theorem greater_of_numbers {x y : Binary64} (first : x.isNaN = false)
    (second : y.isNaN = false) : x.greater y = if x.less y then y else x := by
  rw [greater, first, second]
  rfl

theorem isExact_zero : IsExact 0 := ⟨Nat.dvd_zero _, by decide⟩

theorem counts_zero : zero.Counts 0 := ⟨by decide, by decide⟩

theorem counts_negativeZero : negativeZero.Counts 0 := ⟨by decide, by decide⟩

theorem natAbs_quanta (x : Binary64) :
    x.quanta.natAbs = quantaOfMagnitude x.magnitude := by
  rw [quanta]
  cases x.isNegative <;> simp

/-- The sum of finite patterns is the exact sum, rounded once. -/
theorem add_eq_rounded {x y : Binary64}
    (first : x.magnitude < infinityMagnitude)
    (second : y.magnitude < infinityMagnitude) :
    x.add y =
      if x.quanta + y.quanta = 0 then
        (if x.isNegative && y.isNegative then negativeZero else zero)
      else rounded (decide (x.quanta + y.quanta < 0))
        (x.quanta + y.quanta).natAbs 1 := by
  rw [Binary64.add, isNaN_of_finite first, isNaN_of_finite second,
    isInfinite_of_finite first, isInfinite_of_finite second]
  rfl

/-- The quanta of a pattern with a sign. -/
theorem quanta_eq (x : Binary64) :
    x.quanta = if x.isNegative then -(x.quanta.natAbs :
      Int) else x.quanta.natAbs := by
  rw [quanta]
  cases x.isNegative <;> simp

namespace Counts

variable {x y : Binary64} {m n : Int}

/-- A sum that is exact is not rounded. -/
theorem add (first : x.Counts m) (second : y.Counts n)
    (exact : IsExact (m + n).natAbs) : (x.add y).Counts (m + n) := by
  rw [add_eq_rounded first.finite second.finite, first.quanta, second.quanta]
  by_cases none : m + n = 0
  · rw [if_pos none, none]
    split
    · exact counts_negativeZero
    · exact counts_zero
  · obtain ⟨finite, quanta⟩ := rounded_of_isExact exact (decide (m + n < 0))
    rw [if_neg none]
    refine ⟨finite, quanta.trans ?_⟩
    by_cases negative : m + n < 0
    · rw [decide_eq_true negative, if_pos rfl]
      omega
    · rw [decide_eq_false negative, if_neg Bool.false_ne_true]
      omega

/-- A product that is exact is not rounded. -/
theorem mul (first : x.Counts m) (second : y.Counts n) {product : Int}
    (multiplied : m * n = product * quantaPerOne)
    (exact : IsExact product.natAbs) : (x.mul y).Counts product := by
  have sized : m.natAbs * n.natAbs = product.natAbs * quantaPerOne := by
    rw [← Int.natAbs_mul, multiplied, Int.natAbs_mul, Int.natAbs_natCast]
  have unfolded :
      x.mul y = rounded (x.isNegative != y.isNegative) product.natAbs 1 := by
    rw [Binary64.mul, isNaN_of_finite first.finite,
      isNaN_of_finite second.finite, isInfinite_of_finite first.finite,
      isInfinite_of_finite second.finite, first.quanta, second.quanta, sized,
      rounded_mul_quantaPerOne]
    rfl
  obtain ⟨finite, quanta⟩ :=
    rounded_of_isExact exact (x.isNegative != y.isNegative)
  rw [unfolded]
  refine ⟨finite, quanta.trans ?_⟩
  have positive : (0 : Int) < quantaPerOne :=
    Int.natCast_pos.mpr quantaPerOne_pos
  have signed := x.quanta_eq
  have signedToo := y.quanta_eq
  rw [first.quanta] at signed
  rw [second.quanta] at signedToo
  refine Int.eq_of_mul_eq_mul_right (Int.ne_of_gt positive) ?_
  rw [← multiplied, signed, signedToo]
  have sizedToo :
      (product.natAbs : Int) * quantaPerOne = m.natAbs * n.natAbs := by
    rw [← Int.natCast_mul, ← Int.natCast_mul, sized]
  cases x.isNegative <;> cases y.isNegative <;>
    simp only [bne_self_eq_false, Bool.false_bne, Bool.bne_false,
      Bool.false_eq_true, if_true, if_false, Int.neg_mul, Int.mul_neg,
      Int.neg_neg, sizedToo]

/-- A finite number times nothing is nothing. -/
theorem mul_zero (first : x.Counts m) (second : y.Counts 0) :
    (x.mul y).Counts 0 :=
  first.mul second (by rw [Int.mul_zero, Int.zero_mul]) isExact_zero

end Counts

/-! ## Short sums -/

/-- Fewer than eight values are added from left to right. -/
theorem sum_of_short {values : List Binary64} (short : values.length < 8) :
    sum values = add zero (values.foldl add negativeZero) := by
  have few : ¬128 < values.length := by omega
  rw [sum, pairwiseSum, if_neg few]
  match values, short with
  | [], _ | [_], _ | [_, _], _ | [_, _, _], _ | [_, _, _, _], _
  | [_, _, _, _, _], _
  | [_, _, _, _, _, _], _ | [_, _, _, _, _, _, _], _ => rfl

/--
From a start on, numbers can be added one after the other without any rounding.
-/
def AddsExactly (start : Int) : List Int → Prop
  | [] => True
  | number :: rest =>
      IsExact (start + number).natAbs ∧ AddsExactly (start + number) rest

theorem AddsExactly.isExact_sum {start : Int} {numbers : List Int}
    (adds : AddsExactly start numbers) (exact : IsExact start.natAbs) :
    IsExact (start + numbers.sum).natAbs := by
  induction numbers generalizing start with
  | nil => rwa [List.sum_nil, Int.add_zero]
  | cons number rest ih =>
      rw [List.sum_cons, ← Int.add_assoc]
      exact ih adds.2 adds.1

namespace Counts

variable {x : Binary64} {m : Int} {values : List Binary64} {numbers : List Int}

/-- Numbers are added up exactly as long as every sum on the way is exact. -/
theorem foldl_add (count : List.Forall₂ Counts values numbers)
    (start : x.Counts m) (adds : AddsExactly m numbers) :
    (values.foldl Binary64.add x).Counts (m + numbers.sum) := by
  induction count generalizing x m with
  | nil =>
      rw [List.sum_nil, Int.add_zero]
      exact start
  | cons first _ ih =>
      rw [List.sum_cons, ← Int.add_assoc]
      exact ih (start.add first adds.1) adds.2

theorem sum (count : List.Forall₂ Counts values numbers)
    (few : values.length < 8) (adds : AddsExactly 0 numbers) :
    (Binary64.sum values).Counts numbers.sum := by
  have added := foldl_add count counts_negativeZero adds
  have total := counts_zero.add added (by
    rw [Int.zero_add]
    exact adds.isExact_sum isExact_zero)
  rw [Int.zero_add, Int.zero_add] at total
  rwa [sum_of_short few]

/-- The sum of a single exact number is that number. -/
theorem sum_singleton (counts : x.Counts m) (exact : IsExact m.natAbs) :
    (Binary64.sum [x]).Counts m := by
  have alone :=
    sum (.cons counts .nil) (by simp) ⟨by rwa [Int.zero_add], trivial⟩
  rwa [List.sum_singleton] at alone

end Counts

/-! ## Numbers from zero to one -/

/-- A number that is at least zero and less than one. -/
def IsFraction (x : Binary64) : Prop :=
  zero.atMost x ∧ x.less one

instance : DecidablePred IsFraction :=
  fun _ => inferInstanceAs (Decidable (_ ∧ _))

/-- A pattern well below infinity stands for an exact count of quanta. -/
theorem isExact_quanta {x : Binary64}
    (small : x.magnitude < 0x7fe0000000000000) : IsExact x.quanta.natAbs := by
  rw [natAbs_quanta]
  obtain ⟨exponent, significand, short, leading, split⟩ :=
    exists_exponent x.magnitude
  rw [split, quantaOfMagnitude_add (Nat.le_of_lt short) leading]
  exact isExact_shiftLeft short (by omega)

theorem IsFraction.magnitude_lt {x : Binary64} (fraction : x.IsFraction) :
    x.magnitude < 0x3ff0000000000000 := by
  obtain ⟨lower, upper⟩ := fraction
  rw [atMost, Bool.and_eq_true, decide_eq_true_iff] at lower
  rw [less, Bool.and_eq_true, decide_eq_true_iff] at upper
  have above : 0 ≤ x.rank := lower.2
  have below : x.rank < 0x3ff0000000000000 := upper.2
  unfold rank at above below
  cases sign : x.isNegative <;>
    simp only [sign, if_true, if_false, Bool.false_eq_true]
      at above below <;> omega

/-- Such a number comes out of a sum over nothing else as it is. -/
theorem IsFraction.sum_singleton {x : Binary64} (fraction : x.IsFraction) :
    (sum [x]).Counts x.quanta := by
  have small := fraction.magnitude_lt
  have finite : x.magnitude < infinityMagnitude :=
    Nat.lt_trans small (by decide)
  exact Counts.sum_singleton ⟨finite, rfl⟩
    (isExact_quanta (Nat.lt_trans small (by decide)))

/-! ## Integers -/

/-- A pattern that stands for an integer. -/
def Denotes (x : Binary64) (value : Int) : Prop :=
  x.Counts (value * quantaPerOne)

/--
An integer of at most fifty-three bits is exact, whatever power of two it is
counted in.
-/
theorem isExact_scaled {value : Int} (short : value.natAbs < 0x20000000000000)
    {bits : Nat}
    (few : bits < 2045) : IsExact (value * (1 <<< bits : Nat)).natAbs := by
  rw [Int.natAbs_mul, Int.natAbs_natCast, Nat.one_shiftLeft, ← Nat.shiftLeft_eq]
  exact isExact_shiftLeft short few

theorem isExact_integer {value : Int}
    (short : value.natAbs < 0x20000000000000) :
    IsExact (value * quantaPerOne).natAbs :=
  isExact_scaled short (by decide : 1074 < 2045)

/-- Integers are added up exactly as long as they are small together. -/
theorem addsExactly_integers {start : Int} {numbers : List Int}
    (short : start.natAbs + (numbers.map Int.natAbs).sum < 0x20000000000000) :
    AddsExactly (start * quantaPerOne) (numbers.map (· * quantaPerOne)) := by
  induction numbers generalizing start with
  | nil => trivial
  | cons number rest ih =>
      rw [List.map_cons, List.sum_cons] at short
      rw [List.map_cons, AddsExactly, ← Int.add_mul]
      exact ⟨isExact_integer (by omega), ih (by omega)⟩

theorem exists_denotes {value : Int} (short : value.natAbs < 0x20000000000000) :
    ∃ pattern, (Number.integer value).toBinary64 = .ok pattern ∧
      pattern.Denotes value := by
  obtain ⟨pattern, found, finite, quanta⟩ := exists_ofInt? short
  exact ⟨pattern, Number.toBinary64_of_some found, finite, quanta⟩

theorem denotes_zero_iff {x : Binary64} : x.Denotes 0 ↔ x.Counts 0 := by
  rw [Denotes, Int.zero_mul]

theorem denotes_one : one.Denotes 1 := ⟨by decide, by decide +kernel⟩

theorem denotes_minusOne : minusOne.Denotes (-1) :=
  ⟨by decide, by decide +kernel⟩

theorem denotes_two : two.Denotes 2 := ⟨by decide, by decide +kernel⟩

theorem denotes_minusTwo : minusTwo.Denotes (-2) :=
  ⟨by decide, by decide +kernel⟩

namespace Denotes

variable {x y : Binary64} {m n : Int}

theorem finite (denotes : x.Denotes n) : x.magnitude < infinityMagnitude :=
  Counts.finite denotes

theorem isNaN_eq (denotes : x.Denotes n) : x.isNaN = false :=
  isNaN_of_finite denotes.finite

theorem mul (first : x.Denotes m) (second : y.Denotes n)
    (short : (m * n).natAbs < 0x20000000000000) : (x.mul y).Denotes (m * n) :=
  Counts.mul first second (by ac_rfl) (isExact_integer short)

/-- What a weighted sum makes of a single integer. -/
theorem weigh (denotes : x.Denotes m) (weighs : y.Denotes n)
    (short : m.natAbs < 0x20000000000000)
    (shortToo : (m * n).natAbs < 0x20000000000000) :
    ((Binary64.sum [x]).mul y).Denotes (m * n) := by
  have alone : (Binary64.sum [x]).Denotes m :=
    denotes.sum_singleton (isExact_integer short)
  exact alone.mul weighs shortToo

theorem sum {values : List Binary64} {numbers : List Int}
    (denote : List.Forall₂ Denotes values numbers) (few : values.length < 8)
    (short : (numbers.map Int.natAbs).sum < 0x20000000000000) :
    (Binary64.sum values).Denotes numbers.sum := by
  have adds : AddsExactly (0 * quantaPerOne) (numbers.map (· * quantaPerOne)) :=
    addsExactly_integers (by simpa using short)
  rw [Int.zero_mul] at adds
  have total := Counts.sum (List.forall₂_map_right_iff.mpr denote) few adds
  rwa [List.sum_map_mul_right, List.map_id'] at total

/-! ## Order -/

theorem le_of_rank_le (first : x.Denotes m) (second : y.Denotes n)
    (ordered : x.rank ≤ y.rank) : m ≤ n := by
  have counted := quanta_le_of_rank_le ordered
  rw [Counts.quanta first, Counts.quanta second] at counted
  exact Int.le_of_mul_le_mul_right counted
    (Int.natCast_pos.mpr quantaPerOne_pos)

theorem less_eq (first : x.Denotes m) (second : y.Denotes n) :
    x.less y = decide (x.rank < y.rank) :=
  Binary64.less_eq first.isNaN_eq second.isNaN_eq

theorem lesser (first : x.Denotes m) (second : y.Denotes n) :
    (x.lesser y).Denotes (min m n) := by
  rw [lesser_of_numbers first.isNaN_eq second.isNaN_eq, less_eq second first]
  by_cases below : y.rank < x.rank
  · rw [decide_eq_true below,
      Int.min_eq_right (second.le_of_rank_le first (Int.le_of_lt below))]
    exact second
  · rw [decide_eq_false below,
      Int.min_eq_left (first.le_of_rank_le second (Int.not_lt.mp below))]
    exact first

theorem greater (first : x.Denotes m) (second : y.Denotes n) :
    (x.greater y).Denotes (max m n) := by
  rw [greater_of_numbers first.isNaN_eq second.isNaN_eq, less_eq first second]
  by_cases below : x.rank < y.rank
  · rw [decide_eq_true below,
      Int.max_eq_right (first.le_of_rank_le second (Int.le_of_lt below))]
    exact second
  · rw [decide_eq_false below,
      Int.max_eq_left (second.le_of_rank_le first (Int.not_lt.mp below))]
    exact first

/-! ## Grid steps -/

theorem bounded (denotes : x.Denotes n) :
    x.bounded.Denotes (min (max n (-2)) 2) := by
  have raised := denotes.greater denotes_minusTwo
  have held := raised.lesser denotes_two
  rw [lesser_of_numbers raised.isNaN_eq denotes_two.isNaN_eq,
    greater_of_numbers denotes.isNaN_eq denotes_minusTwo.isNaN_eq] at held
  exact held

/-- An integer asks for the step of its sign. -/
theorem unitStep (denotes : x.Denotes n) : x.unitStep = n.sign := by
  obtain ⟨place, held⟩ : ∃ place, place = min (max n (-2)) 2 := ⟨_, rfl⟩
  have bounded := denotes.bounded
  rw [← held] at bounded
  obtain ⟨bits, few, halved⟩ : ∃ bits < 2045, quantaPerOne = 2 * 1 <<< bits :=
    ⟨1073, by decide, by decide +kernel⟩
  have half : Binary64.half.Counts (1 <<< bits : Nat) := by
    refine ⟨by decide, Int.eq_of_mul_eq_mul_left (by decide : (2 : Int) ≠ 0) ?_⟩
    have whole : 2 * Binary64.half.quanta = quantaPerOne := by decide +kernel
    rw [whole, halved]
    rfl
  have positive := quantaPerOne_pos
  have exact : IsExact (place * quantaPerOne + (1 <<< bits : Nat)).natAbs := by
    have counted (rest : Nat) :
        place * (2 * rest : Nat) + rest = (2 * place + 1) * rest := by
      push_cast
      ring
    rw [halved, counted]
    exact isExact_scaled (by omega) few
  have floored : (x.bounded.add Binary64.half).floored = place := by
    rw [Binary64.floored, (Counts.add bounded half exact).quanta, Int.add_comm,
      Int.add_mul_ediv_right _ _ (by omega),
      Int.ediv_eq_zero_of_lt (by omega) (by omega), Int.zero_add]
  rw [Binary64.unitStep, denotes.isNaN_eq, floored, held]
  rcases Int.lt_trichotomy n 0 with negative | rfl | above
  · rw [Int.sign_eq_neg_one_of_neg negative]
    show max (-1) (min 1 _) = _
    omega
  · rfl
  · rw [Int.sign_eq_one_of_pos above]
    show max (-1) (min 1 _) = _
    omega

end Denotes

/-- An exact number without weight adds nothing. -/
theorem Counts.weigh_zero {x y : Binary64} {m : Int} (counts : x.Counts m)
    (exact : IsExact m.natAbs) (weightless : y.Denotes 0) :
    ((Binary64.sum [x]).mul y).Counts 0 :=
  (counts.sum_singleton exact).mul_zero (denotes_zero_iff.mp weightless)

/-- A fraction without weight adds nothing. -/
theorem IsFraction.weigh {x y : Binary64} (fraction : x.IsFraction)
    (weightless : y.Denotes 0) : ((sum [x]).mul y).Denotes 0 :=
  denotes_zero_iff.mpr
    (fraction.sum_singleton.mul_zero (denotes_zero_iff.mp weightless))

end Binary64

end NeuralGenome
