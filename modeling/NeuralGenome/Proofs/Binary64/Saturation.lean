import NeuralGenome.Proofs.Binary64.GridStep

/-!
# Indexes and the integer part

An operand names an index by comparisons with the two greatest indexes and by an
integer division of quanta.  What it is meant to name is said of the exact
number: its integer part, toward zero, held within thirty-two signed bits.  Both
agree on every pattern.  Integer parts are taken of finite numbers only, because
the comparisons sort the infinities out before.
-/

namespace NeuralGenome

/-- The integer part of a number, which is the next integer toward zero. -/
def towardZero (number : ℚ) : Int :=
  if 0 ≤ number then ⌊number⌋ else ⌈number⌉

theorem towardZero_intCast (integer : Int) : towardZero integer = integer := by
  rw [towardZero, Int.floor_intCast, Int.ceil_intCast, ite_self]

namespace Binary64

/-! ## What an operand is to name -/

/--
The integer part of a number, held within the indexes that an operand can name.
What is not a number names the first index.
-/
def clampedIndex (x : Binary64) : Int :=
  if x.isNaN then 0
  else if x.isInfinite then (if x.isNegative then leastIndex else greatestIndex)
  else max leastIndex (min greatestIndex (towardZero x.value))

/--
The index of an operand, when numbers that have no integer part are a fault.
-/
def readIndex (x : Binary64) : Except Fault Int :=
  if x.isNaN then .ok 0
  else if greatestIndexPattern.atMost x then .ok greatestIndex
  else if x.atMost leastIndexPattern then .ok leastIndex
  else (Number.pattern x).toInt

section Saturation

variable {x y : Binary64}

/-! ## Integer parts in quanta -/

/-- In quanta, the integer part is a quotient that is cut toward zero. -/
theorem towardZero_value (x : Binary64) : towardZero x.value = x.truncated := by
  have positive : (0 : ℚ) < quantaPerOne := Nat.cast_pos.mpr quantaPerOne_pos
  rw [towardZero, value, Rat.floor_intCast_div_natCast,
    Rat.ceil_intCast_div_natCast, truncated]
  by_cases nonneg : 0 ≤ x.quanta
  · rw [if_pos (div_nonneg (Int.cast_nonneg nonneg) positive.le),
      Int.tdiv_eq_ediv_of_nonneg nonneg]
  · have negative : (x.quanta : ℚ) < 0 :=
      Int.cast_lt_zero.mpr (Int.not_le.mp nonneg)
    rw [if_neg (not_le.mpr (div_neg_of_neg_of_pos negative positive)),
      ← Int.tdiv_eq_ediv_of_nonneg
        (Int.neg_nonneg_of_nonpos (Int.le_of_not_le nonneg)),
      Int.neg_tdiv, Int.neg_neg]

/-! ## Infinities and faults -/

/-- An infinity lies beyond the bound on its side and only beyond that one. -/
theorem atMost_of_isInfinite (infinite : x.isInfinite = true) :
    x.isNaN = false ∧ greatestIndexPattern.atMost x = !x.isNegative ∧
      x.atMost leastIndexPattern = x.isNegative := by
  have full : x.magnitude = infinityMagnitude := beq_iff_eq.mp infinite
  have number : x.isNaN = false :=
    decide_eq_false (by rw [full]; exact Nat.lt_irrefl _)
  have rank : x.rank =
      if x.isNegative then -(infinityMagnitude : Int)
      else infinityMagnitude := by
    rw [rank, full]
  refine ⟨number, ?_, ?_⟩
  · rw [atMost_eq (by decide) number, rank]
    cases x.isNegative <;> decide
  · rw [atMost_eq number (by decide), rank]
    cases x.isNegative <;> decide

/-- An infinity names the bound on its side. -/
theorem toIndex_of_isInfinite (infinite : x.isInfinite = true) :
    x.toIndex = if x.isNegative then leastIndex else greatestIndex := by
  obtain ⟨number, above, below⟩ := atMost_of_isInfinite infinite
  rw [toIndex, number, above, below]
  cases x.isNegative <;> rfl

/-- An operand names the index that it is to name. -/
theorem toIndex_eq (x : Binary64) : x.toIndex = x.clampedIndex := by
  rw [clampedIndex]
  split
  case isTrue undefined => rw [toIndex, if_pos undefined]
  case isFalse number =>
    split
    case isTrue infinite => exact toIndex_of_isInfinite infinite
    case isFalse =>
      rw [towardZero_value, toIndex_eq_clamp (Bool.eq_false_iff.mpr number)]

/-- A greater number never names a lesser index. -/
theorem toIndex_mono (ordered : x.atMost y) : x.toIndex ≤ y.toIndex := by
  have numbers := ordered
  rw [atMost, Bool.and_eq_true, Bool.and_eq_true, Bool.not_eq_true',
    Bool.not_eq_true'] at numbers
  obtain ⟨⟨number, numberToo⟩, -⟩ := numbers
  rw [toIndex_eq_clamp number, toIndex_eq_clamp numberToo]
  exact max_le_max_left _
    (min_le_min_left _ (truncated_mono (quanta_le_of_atMost ordered)))

/-- The number whose integer part is taken has one. -/
theorem readIndex_eq (x : Binary64) : x.readIndex = .ok x.toIndex := by
  cases infinite : x.isInfinite with
  | true =>
      -- an infinity is sorted out by one of the comparisons
      obtain ⟨number, above, below⟩ := atMost_of_isInfinite infinite
      rw [readIndex, toIndex, number, above, below]
      cases x.isNegative <;> rfl
  | false =>
      rw [readIndex, toIndex]
      split
      case isTrue => rfl
      case isFalse number =>
        have integer : (Number.pattern x).toInt = .ok x.truncated := by
          rw [Number.toInt, checkFinite, if_neg number, infinite]
          rfl
        rw [integer, apply_ite Except.ok, apply_ite Except.ok]

/-! ## Indexes that are stored as numbers -/

theorem value_of_quanta {index : Int}
    (stands : x.quanta = index * quantaPerOne) : x.value = index := by
  have positive : (quantaPerOne : ℚ) ≠ 0 :=
    Nat.cast_ne_zero.mpr quantaPerOne_pos.ne'
  rw [value, stands, Int.cast_mul, Int.cast_natCast,
    mul_div_cancel_right₀ _ positive]

/-- A number that is an index names that index. -/
theorem toIndex_of_value {index : Int} (finite : x.isFinite = true)
    (stands : x.value = index)
    (least : leastIndex ≤ index) (greatest : index ≤ greatestIndex) :
    x.toIndex = index := by
  have small : x.magnitude < infinityMagnitude := of_decide_eq_true finite
  rw [toIndex_eq_clamp (isNaN_of_finite small), ← towardZero_value, stands,
    towardZero_intCast, min_eq_right greatest, max_eq_right least]

/-- An index is stored as itself. -/
theorem exists_stored {index : Int} (least : leastIndex ≤ index)
    (greatest : index ≤ greatestIndex) :
    ∃ pattern, (Number.integer index).toBinary64 = .ok pattern ∧
      pattern.isFinite = true ∧
      pattern.value = index ∧ pattern.toIndex = index := by
  have short : index.natAbs < 0x20000000000000 := by
    rw [leastIndex] at least
    rw [greatestIndex] at greatest
    omega
  obtain ⟨pattern, stored, denotes⟩ := exists_denotes short
  have finite : pattern.isFinite = true := decide_eq_true denotes.finite
  have stands := value_of_quanta denotes.quanta
  exact ⟨pattern, stored, finite, stands,
    toIndex_of_value finite stands least greatest⟩

/--
The index of an operand is settled for all patterns.  It is found without a
fault, although numbers without an integer part would be one.  What is not a
number names the first index, and any other operand its integer part, toward
zero, held within thirty-two signed bits, which is a bound for an infinity.  A
greater operand never names a lesser index.  An index within the bounds is named
by every number that is this index and can be stored as such a number; so the
index of any operand can be stored, and what is stored names it again.
-/
theorem toIndex_settled (x : Binary64) :
    x.readIndex = .ok x.toIndex ∧ x.toIndex = x.clampedIndex ∧
      (∀ y : Binary64, x.atMost y → x.toIndex ≤ y.toIndex) ∧
      (∀ index : Int, leastIndex ≤ index → index ≤ greatestIndex →
        (x.isFinite = true → x.value = index → x.toIndex = index) ∧
          ∃ pattern, (Number.integer index).toBinary64 = .ok pattern ∧
            pattern.isFinite = true ∧
            pattern.value = index ∧ pattern.toIndex = index) ∧
      ∃ pattern, (Number.integer x.toIndex).toBinary64 = .ok pattern ∧
        pattern.toIndex = x.toIndex := by
  refine ⟨readIndex_eq x, toIndex_eq x, fun y => toIndex_mono, ?_, ?_⟩
  · intro index least greatest
    exact ⟨fun finite stands => toIndex_of_value finite stands least greatest,
      exists_stored least greatest⟩
  · obtain ⟨least, greatest⟩ := x.toIndex_between
    obtain ⟨pattern, stored, -, -, named⟩ := exists_stored least greatest
    exact ⟨pattern, stored, named⟩

/--
The greatest index names itself, and so does the fraction that lies above it.
-/
theorem toIndex_settled_brim :
    let above : Binary64 := ⟨0x41dfffffffe00000⟩
    greatestIndexPattern.atMost above ∧ leastIndex ≤ greatestIndex ∧
      greatestIndexPattern.isFinite = true ∧
      greatestIndexPattern.value = greatestIndex ∧
      greatestIndexPattern.toIndex = greatestIndex ∧
      above.toIndex = greatestIndex ∧
      ∃ pattern, (Number.integer greatestIndex).toBinary64 = .ok pattern ∧
        pattern.isFinite = true ∧ pattern.value = greatestIndex ∧
        pattern.toIndex = greatestIndex := by
  intro above
  have ordered : greatestIndexPattern.atMost above := by decide
  have bounds : leastIndex ≤ greatestIndex := by decide
  have finite : greatestIndexPattern.isFinite = true := by decide
  have stands : greatestIndexPattern.value = greatestIndex :=
    value_of_quanta (by decide +kernel)
  obtain ⟨-, -, grows, stored, -⟩ := toIndex_settled greatestIndexPattern
  obtain ⟨named, storedToo⟩ := stored greatestIndex bounds (Int.le_refl _)
  have least := grows above ordered
  rw [named finite stands] at least
  exact ⟨ordered, bounds, finite, stands, named finite stands,
    Int.le_antisymm above.toIndex_between.2 least, storedToo⟩

end Saturation

end Binary64

end NeuralGenome
