import Mathlib.Order.Monotone.Basic
import NeuralGenome.Number

/-!
# Numbers that need no rounding

A magnitude is an exponent of the spacing and a significand of at most
fifty-three bits, and it stands for the significand shifted by the exponent.
The order of magnitudes is therefore the order of the numbers they stand for,
and a count of quanta that is a multiple of the spacing around it is rounded to
itself.  Integers of at most fifty-three bits are such counts: they have a
pattern, and the pattern has their value.
-/

namespace NeuralGenome

namespace Binary64

/-! ## Magnitudes as exponent and significand -/

/--
The significand may have any size below the first exponent, and fifty-three bits
after it.
-/
theorem quantaOfMagnitude_add {exponent significand : Nat}
    (short : significand ≤ 0x20000000000000)
    (leading : exponent = 0 ∨ 0x10000000000000 ≤ significand) :
    quantaOfMagnitude (exponent * 0x10000000000000 + significand) =
      significand <<< exponent := by
  have field : (exponent * 0x10000000000000 + significand) >>> 52 =
      exponent + significand / 0x10000000000000 := by
    rw [Nat.shiftRight_eq_div_pow]
    omega
  rw [quantaOfMagnitude, field]
  rcases Nat.lt_or_ge significand 0x10000000000000 with small | normal
  · obtain rfl := leading.resolve_right (Nat.not_le.mpr small)
    rw [Nat.div_eq_of_lt small, Nat.zero_mul, Nat.zero_add]
    exact (if_pos rfl).trans (Nat.zero_add significand)
  · rcases Nat.lt_or_eq_of_le short with below | rfl
    · have one : significand / 0x10000000000000 = 1 := by omega
      have fraction :
          0x10000000000000 + (exponent * 0x10000000000000 + significand) %
            0x10000000000000 = significand := by omega
      rw [one, fraction]
      exact if_neg (Nat.succ_ne_zero exponent)
    · -- such a magnitude is the first with the next exponent
      have fraction : (exponent * 0x10000000000000 + 0x20000000000000) %
          0x10000000000000 = 0 := by omega
      rw [fraction]
      exact (if_neg (Nat.succ_ne_zero (exponent + 1))).trans
        (Nat.shiftLeft_succ_inside 0x10000000000000 exponent)

theorem exists_exponent (magnitude : Nat) :
    ∃ exponent significand, significand < 0x20000000000000 ∧
      (exponent = 0 ∨ 0x10000000000000 ≤ significand) ∧
      magnitude = exponent * 0x10000000000000 + significand := by
  refine ⟨magnitude / 0x10000000000000 - 1,
    magnitude - (magnitude / 0x10000000000000 - 1) * 0x10000000000000, ?_, ?_,
    ?_⟩ <;> omega

/-- Neighbouring magnitudes differ by the spacing between them. -/
theorem quantaOfMagnitude_strictMono : StrictMono quantaOfMagnitude := by
  refine strictMono_nat_of_lt_succ fun magnitude => ?_
  obtain ⟨exponent, significand, short, leading, rfl⟩ :=
    exists_exponent magnitude
  rw [Nat.add_assoc, quantaOfMagnitude_add (Nat.le_of_lt short) leading,
    quantaOfMagnitude_add short (leading.imp_right Nat.le_succ_of_le),
    Nat.shiftLeft_eq, Nat.shiftLeft_eq]
  exact Nat.mul_lt_mul_of_pos_right (Nat.lt_succ_self significand)
    (Nat.two_pow_pos exponent)

/-! ## Counts of quanta that are multiples of their spacing -/

/--
A count of quanta that is a multiple of the spacing around it, well below
infinity.
-/
structure IsExact (quanta : Nat) : Prop where
  multiple : 1 <<< spacing quanta ∣ quanta
  finite : spacing quanta < 2045

theorem nearestEven_of_dvd {numerator denominator : Nat}
    (divides : denominator ∣ numerator) (positive : 0 < denominator) :
    nearestEven numerator denominator = numerator / denominator := by
  rw [nearestEven, Nat.mod_eq_zero_of_dvd divides, Nat.mul_zero]
  exact if_pos positive

/-- Scaled by the spacing around it, a count of quanta is a significand. -/
theorem div_spacing (quanta : Nat) :
    quanta / 1 <<< spacing quanta < 0x20000000000000 ∧
      (spacing quanta = 0 ∨
        0x10000000000000 ≤ quanta / 1 <<< spacing quanta) := by
  have upper : quanta < 2 ^ (quanta.log2 + 1) := Nat.lt_log2_self
  rw [Nat.one_shiftLeft, spacing]
  rcases Nat.lt_or_ge quanta.log2 53 with few | many
  · have none : quanta.log2 + 1 - 53 = 0 := by omega
    have bounded : 2 ^ (quanta.log2 + 1) ≤ 2 ^ 53 :=
      Nat.pow_le_pow_right (by decide) (by omega)
    rw [none]
    omega
  · have lower : 2 ^ quanta.log2 ≤ quanta := Nat.log2_self_le (by
      rintro rfl
      exact absurd many (by decide))
    obtain ⟨rest, bits⟩ : ∃ rest, quanta.log2 + 1 = 53 + rest :=
      ⟨quanta.log2 + 1 - 53, by omega⟩
    have bitsToo : quanta.log2 = 52 + rest := by omega
    rw [bits, Nat.pow_add] at upper
    rw [bitsToo, Nat.pow_add] at lower
    rw [bits, Nat.add_sub_cancel_left]
    exact ⟨Nat.div_lt_of_lt_mul (by rwa [Nat.mul_comm]),
      .inr ((Nat.le_div_iff_mul_le (Nat.two_pow_pos rest)).mpr lower)⟩

namespace IsExact

variable {quanta : Nat}

/-- Rounding an exact count keeps it. -/
theorem roundedMagnitude_eq (exact : IsExact quanta) :
    roundedMagnitude quanta 1 =
      spacing quanta * 0x10000000000000 + quanta / 1 <<< spacing quanta := by
  have short := (div_spacing quanta).1
  have finite := exact.finite
  rw [roundedMagnitude, Nat.div_one, nearestEven_of_dvd exact.multiple
    (by rw [Nat.one_shiftLeft]; exact Nat.two_pow_pos _), Nat.shiftLeft_eq]
  refine Nat.min_eq_left ?_
  rw [infinityMagnitude]
  omega

theorem roundedMagnitude_lt (exact : IsExact quanta) :
    roundedMagnitude quanta 1 < infinityMagnitude := by
  have short := (div_spacing quanta).1
  have finite := exact.finite
  rw [exact.roundedMagnitude_eq, infinityMagnitude]
  omega

theorem quantaOfMagnitude_rounded (exact : IsExact quanta) :
    quantaOfMagnitude (roundedMagnitude quanta 1) = quanta := by
  obtain ⟨short, leading⟩ := div_spacing quanta
  rw [exact.roundedMagnitude_eq,
    quantaOfMagnitude_add (Nat.le_of_lt short) leading, Nat.shiftLeft_eq]
  have multiple := exact.multiple
  rw [Nat.one_shiftLeft] at multiple ⊢
  exact Nat.div_mul_cancel multiple

end IsExact

/-! ## Patterns of a sign and a magnitude -/

section OfMagnitude

variable {magnitude : Nat}

theorem toNat_ofMagnitude (negative : Bool)
    (small : magnitude < 0x8000000000000000) :
    (ofMagnitude negative magnitude).bits.toNat =
      (if negative then 0x8000000000000000 else 0) + magnitude := by
  rw [ofMagnitude]
  refine UInt64.toNat_ofNat_of_lt' ?_
  cases negative
  · exact Nat.lt_of_lt_of_le (by rwa [if_neg Bool.false_ne_true, Nat.zero_add])
      (by decide)
  · rw [if_pos rfl]
    exact Nat.lt_of_lt_of_eq (Nat.add_lt_add_left small _) (by decide)

theorem magnitude_ofMagnitude (negative : Bool)
    (small : magnitude < 0x8000000000000000) :
    (ofMagnitude negative magnitude).magnitude = magnitude := by
  rw [Binary64.magnitude, toNat_ofMagnitude negative small]
  cases negative <;> simp only [if_true, if_false, Bool.false_eq_true] <;> omega

theorem isNegative_ofMagnitude (negative : Bool)
    (small : magnitude < 0x8000000000000000) :
    (ofMagnitude negative magnitude).isNegative = negative := by
  rw [isNegative, toNat_ofMagnitude negative small]
  cases negative <;> simp only [if_true, if_false, Bool.false_eq_true] <;>
    first | exact decide_eq_true (by omega) | exact decide_eq_false (by omega)

end OfMagnitude

/-- A count that is rounded within the finite patterns keeps its sign. -/
theorem rounded_of_finite {count : Nat}
    (finite : roundedMagnitude count 1 < infinityMagnitude) (negative : Bool) :
    (rounded negative count 1).magnitude = roundedMagnitude count 1 ∧
      (rounded negative count 1).quanta =
        if negative then -(quantaOfMagnitude (roundedMagnitude count 1) : Int)
        else quantaOfMagnitude (roundedMagnitude count 1) := by
  have small : roundedMagnitude count 1 < 0x8000000000000000 :=
    Nat.lt_trans finite (by decide)
  rw [rounded, quanta, magnitude_ofMagnitude negative small,
    isNegative_ofMagnitude negative small]
  exact ⟨rfl, rfl⟩

/--
The pattern of an exact count of quanta is finite and stands for that count.
-/
theorem rounded_of_isExact {count : Nat} (exact : IsExact count)
    (negative : Bool) :
    (rounded negative count 1).magnitude < infinityMagnitude ∧
      (rounded negative count 1).quanta =
        if negative then -(count : Int) else count := by
  have finite := exact.roundedMagnitude_lt
  obtain ⟨magnitude, quanta⟩ := rounded_of_finite finite negative
  rw [exact.quantaOfMagnitude_rounded] at quanta
  exact ⟨magnitude ▸ finite, quanta⟩

/-! ## Integers -/

/-- A short number that is shifted has a multiple of the spacing around it. -/
theorem isExact_shiftLeft {number bits : Nat}
    (short : number < 0x20000000000000)
    (few : bits < 2045) : IsExact (number <<< bits) := by
  have near : spacing (number <<< bits) ≤ bits := by
    rw [spacing]
    by_cases zero : number <<< bits = 0
    · rw [zero]
      exact Nat.zero_le bits
    · have bounded : number <<< bits < 2 ^ (53 + bits) := by
        rw [Nat.shiftLeft_eq, Nat.pow_add]
        exact Nat.mul_lt_mul_of_pos_right short (Nat.two_pow_pos bits)
      have := (Nat.log2_lt zero).mpr bounded
      omega
  refine ⟨?_, Nat.lt_of_le_of_lt near few⟩
  rw [Nat.one_shiftLeft]
  refine Nat.dvd_trans (Nat.pow_dvd_pow 2 near) ?_
  rw [Nat.shiftLeft_eq]
  exact Nat.dvd_mul_left _ _

theorem mul_quantaPerOne (number : Nat) :
    number * quantaPerOne = number <<< 1074 := by
  have shifted (bits : Nat) : number * 1 <<< bits = number <<< bits := by
    rw [Nat.one_shiftLeft, Nat.shiftLeft_eq]
  exact shifted 1074

theorem quantaPerOne_pos : 0 < quantaPerOne := by
  have positive (bits : Nat) : 0 < 1 <<< bits := by
    rw [Nat.one_shiftLeft]
    exact Nat.two_pow_pos bits
  exact positive 1074

/-- An integer of at most fifty-three bits has a pattern that stands for it. -/
theorem exists_ofInt? {value : Int} (short : value.natAbs < 0x20000000000000) :
    ∃ pattern, ofInt? value = some pattern ∧
      pattern.magnitude < infinityMagnitude ∧
      pattern.quanta = value * quantaPerOne := by
  have exact : IsExact (value.natAbs * quantaPerOne) := by
    rw [mul_quantaPerOne]
    exact isExact_shiftLeft short (by decide)
  obtain ⟨finite, quanta⟩ := rounded_of_isExact exact (decide (value < 0))
  refine ⟨_, ?_, finite, ?_⟩
  · rw [ofInt?]
    refine if_neg ?_
    rw [isInfinite, beq_iff_eq]
    exact Nat.ne_of_lt finite
  · rw [quanta, Int.natCast_mul]
    by_cases negative : value < 0
    · rw [decide_eq_true negative, if_pos rfl, ← Int.neg_mul,
        Int.ofNat_natAbs_of_nonpos (Int.le_of_lt negative), Int.neg_neg]
    · rw [decide_eq_false negative, if_neg Bool.false_ne_true,
        Int.natAbs_of_nonneg (Int.not_lt.mp negative)]

/-! ## Order -/

/-- Patterns that are ordered stand for numbers in that order. -/
theorem quanta_le_of_rank_le {x y : Binary64} (ordered : x.rank ≤ y.rank) :
    x.quanta ≤ y.quanta := by
  have grows {m n : Nat} (le : m ≤ n) :
      quantaOfMagnitude m ≤ quantaOfMagnitude n :=
    quantaOfMagnitude_strictMono.monotone le
  have nothing {m : Nat} (zero : m = 0) : quantaOfMagnitude m = 0 := by
    subst zero
    rfl
  unfold rank at ordered
  unfold quanta
  cases left : x.isNegative <;> cases right : y.isNegative <;>
    simp only [left, right, if_true, if_false, Bool.false_eq_true] at ordered ⊢
  · exact Int.ofNat_le.mpr (grows (Int.ofNat_le.mp ordered))
  · -- a number that is not negative is at most a negative one only if both are
    -- zero
    rw [nothing (m := x.magnitude) (by omega),
      nothing (m := y.magnitude) (by omega)]
    exact Int.le_refl 0
  · omega
  · exact Int.neg_le_neg (Int.ofNat_le.mpr (grows (by omega)))

/--
The order is strict where the patterns differ in more than the sign of zero.
-/
theorem quanta_lt_of_rank_lt {x y : Binary64} (ordered : x.rank < y.rank) :
    x.quanta < y.quanta := by
  have grows {m n : Nat} (less : m < n) :
      quantaOfMagnitude m < quantaOfMagnitude n :=
    quantaOfMagnitude_strictMono less
  unfold rank at ordered
  unfold quanta
  cases left : x.isNegative <;> cases right : y.isNegative <;>
    simp only [left, right, if_true, if_false, Bool.false_eq_true] at ordered ⊢
  · exact Int.ofNat_lt.mpr (grows (Int.ofNat_lt.mp ordered))
  · omega
  · -- at least one of the two is not zero
    have either : 0 < x.magnitude ∨ 0 < y.magnitude := by omega
    rcases either with something | something <;> have positive :=
      grows something <;> omega
  · have below := grows (m := y.magnitude) (n := x.magnitude) (by omega)
    omega

theorem quanta_le_quanta_iff {x y : Binary64} : x.quanta ≤ y.quanta ↔
    x.rank ≤ y.rank :=
  ⟨fun ordered => Int.not_lt.mp fun above =>
    absurd (quanta_lt_of_rank_lt above) (Int.not_lt.mpr ordered),
    quanta_le_of_rank_le⟩

theorem atMost_eq {x y : Binary64} (number : x.isNaN = false)
    (numberToo : y.isNaN = false) : x.atMost y = decide (x.rank ≤ y.rank) := by
  rw [atMost, number, numberToo]
  rfl

theorem less_eq {x y : Binary64} (number : x.isNaN = false)
    (numberToo : y.isNaN = false) : x.less y = decide (x.rank < y.rank) := by
  rw [less, number, numberToo]
  rfl

/-- Numbers are compared as their quanta are, also where one is infinite. -/
theorem atMost_iff {x y : Binary64} (number : x.isNaN = false)
    (numberToo : y.isNaN = false) : x.atMost y ↔ x.quanta ≤ y.quanta := by
  rw [atMost_eq number numberToo, decide_eq_true_iff, quanta_le_quanta_iff]

theorem less_iff {x y : Binary64} (number : x.isNaN = false)
    (numberToo : y.isNaN = false) : x.less y ↔ x.quanta < y.quanta := by
  rw [less_eq number numberToo, decide_eq_true_iff, ← Int.not_le, ← Int.not_le,
    quanta_le_quanta_iff]

theorem quanta_le_of_atMost {x y : Binary64} (ordered : x.atMost y) :
    x.quanta ≤ y.quanta := by
  rw [atMost, Bool.and_eq_true, decide_eq_true_iff] at ordered
  exact quanta_le_of_rank_le ordered.2

/-! ## Integer parts and indexes -/

/-- A greater number has no lesser integer part. -/
theorem truncated_mono {x y : Binary64} (ordered : x.quanta ≤ y.quanta) :
    x.truncated ≤ y.truncated :=
  Int.tdiv_le_tdiv (Int.natCast_pos.mpr quantaPerOne_pos) ordered

theorem truncated_of_quanta {x : Binary64} {index : Int}
    (stands : x.quanta = index * quantaPerOne) : x.truncated = index := by
  have positive : (0 : Int) < quantaPerOne :=
    Int.natCast_pos.mpr quantaPerOne_pos
  rw [truncated, stands, Int.mul_tdiv_cancel _ (Int.ne_of_gt positive)]

theorem truncated_greatestIndexPattern :
    greatestIndexPattern.truncated = greatestIndex :=
  truncated_of_quanta (by decide +kernel)

theorem truncated_leastIndexPattern :
    leastIndexPattern.truncated = leastIndex :=
  truncated_of_quanta (by decide +kernel)

/--
The index that a number names, infinite or not, is its integer part within the
bounds.
-/
theorem toIndex_eq_clamp {x : Binary64} (number : x.isNaN = false) :
    x.toIndex = max leastIndex (min greatestIndex x.truncated) := by
  have bounds : leastIndex ≤ greatestIndex := by decide
  rw [toIndex, number, if_neg Bool.false_ne_true]
  split
  case isTrue above =>
    have reached := truncated_mono (quanta_le_of_atMost above)
    rw [truncated_greatestIndexPattern] at reached
    omega
  case isFalse notAbove =>
    split
    case isTrue below =>
      have reached := truncated_mono (quanta_le_of_atMost below)
      rw [truncated_leastIndexPattern] at reached
      omega
    case isFalse notBelow =>
      -- between the bounds in quanta, so not beyond them as an integer
      have upper := truncated_mono (Int.le_of_not_le fun ordered =>
        notAbove ((atMost_iff (by decide) number).mpr ordered))
      have lower := truncated_mono (Int.le_of_not_le fun ordered =>
        notBelow ((atMost_iff number (by decide)).mpr ordered))
      rw [truncated_greatestIndexPattern] at upper
      rw [truncated_leastIndexPattern] at lower
      omega

/-- Every pattern names an index within the bounds. -/
theorem toIndex_between (x : Binary64) :
    leastIndex ≤ x.toIndex ∧ x.toIndex ≤ greatestIndex := by
  have bounds : leastIndex ≤ 0 ∧ 0 ≤ greatestIndex := by decide
  cases number : x.isNaN with
  | true =>
      rw [toIndex, number]
      exact bounds
  | false =>
      rw [toIndex_eq_clamp number]
      omega

/-- A pattern that stands for an index names it. -/
theorem toIndex_of_quanta {x : Binary64} {index : Int}
    (finite : x.magnitude < infinityMagnitude)
    (stands : x.quanta = index * quantaPerOne)
    (least : leastIndex ≤ index) (greatest : index ≤ greatestIndex) :
    x.toIndex = index := by
  have number : x.isNaN = false :=
    decide_eq_false (Nat.not_lt.mpr (Nat.le_of_lt finite))
  rw [toIndex_eq_clamp number, truncated_of_quanta stands]
  omega

/-- An index is read back from the pattern that it is recorded as. -/
theorem exists_ofInt?_toIndex {index : Int} (least : leastIndex ≤ index)
    (greatest : index ≤ greatestIndex) :
    ∃ pattern, ofInt? index = some pattern ∧ pattern.toIndex = index := by
  have short : index.natAbs < 0x20000000000000 := by
    rw [leastIndex] at least
    rw [greatestIndex] at greatest
    omega
  obtain ⟨pattern, found, finite, stands⟩ := exists_ofInt? short
  exact ⟨pattern, found, toIndex_of_quanta finite stands least greatest⟩

end Binary64

end NeuralGenome
