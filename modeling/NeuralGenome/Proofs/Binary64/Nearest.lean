import Mathlib.Data.Nat.Dist
import NeuralGenome.Proofs.Binary64.ExactArithmetic

/-!
# Rounding goes to the nearest pattern

Rounding cuts a count of quanta to a significand and an exponent.  What it is
meant to do is said without either: of all magnitudes it finds the one whose
number is nearest to the count, and of two that are equally near the even one.
So rounding respects the order of counts, and a sum of finite patterns is the
pattern nearest to the exact sum.
-/

namespace NeuralGenome

namespace Binary64

/-! ## Nearest magnitudes -/

/-- How far the number of a magnitude is from a count of quanta. -/
def distance (magnitude count : Nat) : Nat :=
  (quantaOfMagnitude magnitude).dist count

/--
A magnitude than which none is nearer to a count of quanta; if there are two,
the even one.
-/
structure IsNearest (count magnitude : Nat) : Prop where
  least : ∀ other, distance magnitude count ≤ distance other count
  even : ∀ other, other ≠ magnitude →
    distance other count = distance magnitude count → magnitude % 2 = 0

theorem nearestEven_between (number step : Nat) :
    number / step ≤ nearestEven number step ∧ nearestEven number step ≤
      number / step + 1 := by
  rw [nearestEven]
  split
  · omega
  split <;> omega

/--
The multiple of a step that is nearest to a number is at most half a step away
from it, and it is an even multiple if it is just that.
-/
theorem nearestEven_near (number : Nat) {step : Nat} (positive : 0 < step) :
    2 * number ≤ 2 * (nearestEven number step * step) + step ∧
      2 * (nearestEven number step * step) ≤ 2 * number + step ∧
      (2 * number = 2 * (nearestEven number step * step) + step ∨
          2 * (nearestEven number step * step) = 2 * number + step →
        nearestEven number step % 2 = 0) := by
  have division := Nat.div_add_mod number step
  have below := Nat.mod_lt number positive
  rw [Nat.mul_comm] at division
  have next : (number / step + 1) * step = number / step * step + step :=
    Nat.succ_mul _ _
  rw [nearestEven]
  split
  · omega
  split
  · rw [next]
    omega
  · rcases Nat.mod_two_eq_zero_or_one (number / step) with even | odd
    · rw [even, Nat.add_zero]
      omega
    · rw [odd, next]
      omega

/--
A significand and an exponent make the magnitude nearest to a count, if the
significand is the nearest at this exponent and the count does not lie in the
range of another exponent.
-/
theorem isNearest_of_near {count exponent significand : Nat}
    (short : significand ≤ 0x20000000000000)
    (leading : exponent = 0 ∨ 0x10000000000000 ≤ significand)
    (lower : 2 * count ≤ 2 * (significand * 2 ^ exponent) + 2 ^ exponent)
    (upper : 2 * (significand * 2 ^ exponent) ≤ 2 * count + 2 ^ exponent)
    (tie : 2 * count = 2 * (significand * 2 ^ exponent) + 2 ^ exponent ∨
      2 * (significand * 2 ^ exponent) = 2 * count + 2 ^ exponent →
        significand % 2 = 0)
    (least : significand = 0x10000000000000 → exponent ≠ 0 →
      significand * 2 ^ exponent ≤ count)
    (greatest : significand = 0x20000000000000 →
      count < significand * 2 ^ exponent) :
    IsNearest count (exponent * 0x10000000000000 + significand) := by
  have quanta := quantaOfMagnitude_add short leading
  rw [Nat.shiftLeft_eq] at quanta
  have positive := Nat.two_pow_pos exponent
  -- a magnitude on either side is a whole step away, unless the count lies on
  -- the other side
  have above {other : Nat}
    (greater : exponent * 0x10000000000000 + significand < other) :
      significand * 2 ^ exponent + 2 ^ exponent ≤ quantaOfMagnitude other ∨
        count < significand * 2 ^ exponent ∧
          significand * 2 ^ exponent < quantaOfMagnitude other := by
    rcases Nat.lt_or_eq_of_le short with below | full
    · left
      have next := @quantaOfMagnitude_add exponent (significand + 1) below
        (leading.imp_right Nat.le_succ_of_le)
      rw [Nat.shiftLeft_eq, Nat.succ_mul] at next
      rw [← next]
      exact quantaOfMagnitude_strictMono.monotone (by omega)
    · exact .inr ⟨greatest full, quanta ▸ quantaOfMagnitude_strictMono greater⟩
  have beneath {other : Nat}
    (less : other < exponent * 0x10000000000000 + significand) :
      quantaOfMagnitude other + 2 ^ exponent ≤ significand * 2 ^ exponent ∨
        significand * 2 ^ exponent ≤ count ∧
          quantaOfMagnitude other < significand * 2 ^ exponent := by
    by_cases first : significand = 0x10000000000000 ∧ exponent ≠ 0
    · exact .inr
        ⟨least first.1 first.2, quanta ▸ quantaOfMagnitude_strictMono less⟩
    · left
      obtain ⟨before, rfl⟩ : ∃ before, significand = before + 1 :=
        Nat.exists_eq_succ_of_ne_zero (by omega)
      have previous :=
        @quantaOfMagnitude_add exponent before (by omega) (by omega)
      rw [Nat.shiftLeft_eq] at previous
      rw [Nat.succ_mul, ← previous]
      exact Nat.add_le_add_right
        (quantaOfMagnitude_strictMono.monotone (by omega)) _
  have nearer (other : Nat)
    (different : other ≠ exponent * 0x10000000000000 + significand) :
      distance (exponent * 0x10000000000000 + significand) count ≤
          distance other count ∧
        (distance other count =
            distance (exponent * 0x10000000000000 + significand) count →
          significand % 2 = 0) := by
    rw [distance, distance, quanta, Nat.dist, Nat.dist]
    rcases Nat.lt_or_gt_of_ne different with less | greater
    · rcases beneath less with far | beyond <;> omega
    · rcases above greater with far | beyond <;> omega
  constructor
  · intro other
    by_cases same : other = exponent * 0x10000000000000 + significand
    · rw [same]
    · exact (nearer other same).1
  · intro other different equal
    have even := (nearer other different).2 equal
    omega

/--
The rounded magnitude is the nearest one, unless that lies beyond the finite
patterns.
-/
theorem exists_isNearest (count : Nat) :
    ∃ magnitude, roundedMagnitude count 1 = min magnitude infinityMagnitude ∧
      IsNearest count magnitude := by
  obtain ⟨short, leading⟩ := div_spacing count
  rw [Nat.one_shiftLeft] at short leading
  have positive := Nat.two_pow_pos (spacing count)
  obtain ⟨lower, upper, tie⟩ := nearestEven_near count positive
  obtain ⟨floor, ceiling⟩ := nearestEven_between count (2 ^ spacing count)
  refine ⟨spacing count * 0x10000000000000 + nearestEven count
    (2 ^ spacing count), ?_, ?_⟩
  · rw [roundedMagnitude, Nat.div_one, Nat.shiftLeft_eq, Nat.one_shiftLeft]
  · refine isNearest_of_near (by omega) (by omega) lower upper tie ?_ ?_
    · intro first scaled
      have cut : count / 2 ^ spacing count =
          nearestEven count (2 ^ spacing count) := by omega
      rw [← cut]
      exact Nat.div_mul_le_self count (2 ^ spacing count)
    · intro last
      have raised : count / 2 ^ spacing count + 1 =
          nearestEven count (2 ^ spacing count) := by
        omega
      rw [← raised]
      exact Nat.lt_mul_of_div_lt (Nat.lt_succ_self _) positive

/-- A greater count has no lesser nearest magnitude. -/
theorem IsNearest.le_of_lt {first second magnitude other : Nat}
    (nearest : IsNearest first magnitude) (nearestToo : IsNearest second other)
    (less : first < second) : magnitude ≤ other := by
  refine Nat.le_of_not_lt fun exchanged => ?_
  have apart := quantaOfMagnitude_strictMono exchanged
  have near := nearest.least other
  have nearToo := nearestToo.least magnitude
  simp only [distance, Nat.dist] at near nearToo
  omega

/-- Rounding respects the order of counts. -/
theorem roundedMagnitude_mono {first second : Nat} (ordered : first ≤ second) :
    roundedMagnitude first 1 ≤ roundedMagnitude second 1 := by
  rcases Nat.lt_or_eq_of_le ordered with less | rfl
  · obtain ⟨magnitude, rounded, nearest⟩ := exists_isNearest first
    obtain ⟨other, roundedToo, nearestToo⟩ := exists_isNearest second
    rw [rounded, roundedToo]
    exact min_le_min_right _ (nearest.le_of_lt nearestToo less)
  · exact Nat.le_refl _

/-! ## Nearest patterns -/

/--
A finite pattern than which none is nearer to a count of quanta; if another
number is as near, the one with the even significand.
-/
structure Approximates (x : Binary64) (total : Int) : Prop where
  finite : x.magnitude < infinityMagnitude
  least : ∀ other : Binary64, other.magnitude < infinityMagnitude →
    (x.quanta - total).natAbs ≤ (other.quanta - total).natAbs
  even : ∀ other : Binary64, other.magnitude < infinityMagnitude →
    other.quanta ≠ x.quanta →
    (other.quanta - total).natAbs = (x.quanta - total).natAbs →
      x.magnitude % 2 = 0

section Addition

variable {x y : Binary64} (first : x.magnitude < infinityMagnitude)
  (second : y.magnitude < infinityMagnitude)
  (inside : roundedMagnitude (x.quanta + y.quanta).natAbs 1 < infinityMagnitude)

include first second inside

theorem quanta_add :
    (x.add y).magnitude = roundedMagnitude (x.quanta + y.quanta).natAbs 1 ∧
      (x.add y).quanta = if x.quanta + y.quanta < 0
        then -(quantaOfMagnitude
          (roundedMagnitude (x.quanta + y.quanta).natAbs 1) : Int)
        else quantaOfMagnitude
          (roundedMagnitude (x.quanta + y.quanta).natAbs 1) := by
  rw [add_eq_rounded first second]
  by_cases none : x.quanta + y.quanta = 0
  · have nothing : roundedMagnitude (0 : Int).natAbs 1 = 0 := by decide
    rw [if_pos none, none, nothing]
    split <;> decide
  · rw [if_neg none]
    have counted := rounded_of_finite inside (decide (x.quanta + y.quanta < 0))
    simpa only [decide_eq_true_eq] using counted

/-- A sum within the finite patterns is the pattern nearest to the exact sum. -/
theorem approximates_add : (x.add y).Approximates (x.quanta + y.quanta) := by
  obtain ⟨magnitude, quanta⟩ := quanta_add first second inside
  generalize x.quanta + y.quanta = total at inside magnitude quanta
  obtain ⟨nearest, rounded, isNearest⟩ := exists_isNearest total.natAbs
  have same : nearest = roundedMagnitude total.natAbs 1 := by omega
  rw [← same] at magnitude quanta
  have here : ((x.add y).quanta - total).natAbs =
      distance nearest total.natAbs := by
    rw [quanta, distance, Nat.dist]
    split <;> omega
  -- a pattern of either sign is at least as far away as its magnitude
  have there (other : Binary64) :
      distance other.magnitude total.natAbs ≤
        (other.quanta - total).natAbs := by
    rw [distance, Nat.dist, ← natAbs_quanta]
    omega
  constructor
  · rw [magnitude, same]
    exact inside
  · intro other _
    rw [here]
    exact Nat.le_trans (isNearest.least other.magnitude) (there other)
  · intro other _ different equal
    rw [here] at equal
    rw [magnitude]
    by_cases opposite : other.magnitude = nearest
    · -- the two differ in their signs only, so that the exact sum is zero
      have counted := natAbs_quanta other
      rw [opposite] at counted
      have zero : total.natAbs = 0 := by
        rw [distance, Nat.dist] at equal
        split at quanta <;> omega
      rw [same, zero]
      decide
    · refine isNearest.even other.magnitude opposite
        (Nat.le_antisymm ?_ (isNearest.least _))
      exact Nat.le_trans (there other) (Nat.le_of_eq equal)

end Addition

/-! ## Integers beyond the finite patterns -/

/--
The least count of ones that rounding finds infinite, half a spacing beyond all
finite patterns.
-/
def overflow : Nat :=
  2 ^ 1024 - 2 ^ 970

theorem roundedMagnitude_eq_infinityMagnitude_iff (ones : Nat) :
    roundedMagnitude (ones * quantaPerOne) 1 = infinityMagnitude ↔
      overflow ≤ ones := by
  have capped : roundedMagnitude (ones * quantaPerOne) 1 ≤ infinityMagnitude :=
    Nat.min_le_right _ _
  constructor
  · intro infinite
    refine Nat.le_of_not_lt fun inside => ?_
    have last : roundedMagnitude ((overflow - 1) * quantaPerOne) 1 <
        infinityMagnitude := by
      decide +kernel
    have below : ones * quantaPerOne ≤ (overflow - 1) * quantaPerOne :=
      Nat.mul_le_mul_right _ (Nat.le_sub_one_of_lt inside)
    exact Nat.ne_of_lt (Nat.lt_of_le_of_lt (roundedMagnitude_mono below) last)
      infinite
  · intro beyond
    have first :
        roundedMagnitude (overflow * quantaPerOne) 1 = infinityMagnitude := by
      decide +kernel
    have above :=
      roundedMagnitude_mono (Nat.mul_le_mul_right quantaPerOne beyond)
    exact Nat.le_antisymm capped (first ▸ above)

/-- The integers without a pattern are those that are rounded to infinity. -/
theorem ofInt?_eq_none_iff (value : Int) : ofInt? value = none ↔
    overflow ≤ value.natAbs := by
  have capped : roundedMagnitude (value.natAbs * quantaPerOne) 1 ≤
      infinityMagnitude :=
    Nat.min_le_right _ _
  have small : roundedMagnitude (value.natAbs * quantaPerOne) 1 <
      0x8000000000000000 :=
    Nat.lt_of_le_of_lt capped (by decide)
  rw [← roundedMagnitude_eq_infinityMagnitude_iff, ofInt?]
  simp only [rounded, isInfinite, magnitude_ofMagnitude _ small, beq_iff_eq,
    ite_eq_left_iff, reduceCtorEq, imp_false, Decidable.not_not]

end Binary64

end NeuralGenome
