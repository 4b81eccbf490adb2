import NeuralGenome.Proofs.Binary64.GridStep

/-!
# Grains

A source of draws hands out grains, the multiples of the fifty-third negative
power of two from zero to one.  Twice a grain, less one, is again a multiple of
such a power, small enough to need no rounding at any point.  It is also too
coarse to be the one number whose step is not the nearest, so that the step is
settled by the quarter in which the grain lies.
-/

namespace NeuralGenome

namespace Binary64

/-- The fifty-third negative power of two, counted in quanta. -/
def quantaPerGrain : Nat :=
  1 <<< 1021

/-- A multiple of the fifty-third negative power of two, from zero to one. -/
def IsGrain (x : Binary64) : Prop :=
  x.IsFraction ∧ ∃ count : Nat, x.value = count / 2 ^ 53

/--
The step that a draw stands for: back below one quarter, and forth from three
quarters on.
-/
def drawnStep (draw : Binary64) : Int :=
  if draw.value < 1 / 4 then -1 else if draw.value < 3 / 4 then 0 else 1

/-! ## Counting grains -/

theorem quantaPerOne_eq_grains :
    quantaPerOne = 2 ^ 53 * quantaPerGrain := by decide +kernel

theorem quantaPerGrain_pos : 0 < quantaPerGrain := by decide +kernel

theorem mul_quantaPerGrain (number : Nat) :
    number * quantaPerGrain = number <<< 1021 := by
  have shifted (bits : Nat) : number * 1 <<< bits = number <<< bits := by
    rw [Nat.one_shiftLeft, Nat.shiftLeft_eq]
  exact shifted 1021

variable {x : Binary64}

theorem IsFraction.quanta_between (fraction : x.IsFraction) :
    0 ≤ x.quanta ∧ x.quanta < quantaPerOne := by
  have number : x.isNaN = false :=
    isNaN_of_finite (Nat.lt_trans fraction.magnitude_lt (by decide))
  have lower := quanta_le_of_atMost fraction.1
  have upper := (less_iff number (by decide)).mp fraction.2
  rw [counts_zero.quanta] at lower
  rw [denotes_one.quanta, Int.one_mul] at upper
  exact ⟨lower, upper⟩

theorem value_eq_grains_iff {count : Nat} :
    x.value = count / 2 ^ 53 ↔ x.quanta = (count * quantaPerGrain : Nat) := by
  have positive : (quantaPerGrain : ℚ) ≠ 0 :=
    Nat.cast_ne_zero.mpr (Nat.ne_of_gt quantaPerGrain_pos)
  have split : (quantaPerOne : ℚ) = quantaPerGrain * 2 ^ 53 := by
    rw [quantaPerOne_eq_grains, Nat.cast_mul, mul_comm, Nat.cast_pow,
      Nat.cast_ofNat]
  rw [value, split, ← div_div, div_left_inj' (by positivity),
    div_eq_iff positive]
  norm_cast

theorem value_lt_quarters_iff (x : Binary64) (quarters : Nat) :
    x.value < quarters / 4 ↔ 4 * x.quanta < quarters * quantaPerOne := by
  have positive : (0 : ℚ) < quantaPerOne := Nat.cast_pos.mpr quantaPerOne_pos
  rw [value, div_lt_div_iff₀ positive (by norm_num), mul_comm]
  norm_cast

theorem drawnStep_eq (draw : Binary64) :
    draw.drawnStep =
      if 4 * draw.quanta < quantaPerOne then -1
      else if 4 * draw.quanta < 3 * quantaPerOne then 0 else 1 := by
  have first := draw.value_lt_quarters_iff 1
  have third := draw.value_lt_quarters_iff 3
  rw [Nat.cast_one, Nat.cast_one, Int.one_mul] at first
  rw [Nat.cast_ofNat, Nat.cast_ofNat] at third
  simp only [drawnStep, first, third]

/-! ## What is made of a grain -/

namespace IsGrain

variable {draw : Binary64}

theorem exists_count (grain : draw.IsGrain) :
    ∃ count < 0x20000000000000,
      draw.quanta = (count * quantaPerGrain : Nat) := by
  obtain ⟨fraction, count, stands⟩ := grain
  have counted := value_eq_grains_iff.mp stands
  refine ⟨count, ?_, counted⟩
  have below := fraction.quanta_between.2
  rw [counted, quantaPerOne_eq_grains, Int.ofNat_lt] at below
  exact Nat.lt_of_mul_lt_mul_right below

/-- Twice a grain needs no rounding, and neither does one less than that. -/
theorem isExact_twice (grain : draw.IsGrain) :
    IsExact (2 * draw.quanta).natAbs ∧
      IsExact (2 * draw.quanta - quantaPerOne).natAbs := by
  obtain ⟨count, few, counted⟩ := grain.exists_count
  obtain ⟨bits, room, doubled⟩ :
      ∃ bits < 2045, 2 * quantaPerGrain = 1 <<< bits :=
    ⟨1022, by decide, by decide +kernel⟩
  have exact {multiple : Int} (short : multiple.natAbs < 0x20000000000000) :
      IsExact (multiple * (2 * quantaPerGrain : Nat)).natAbs := by
    rw [doubled]
    exact isExact_scaled short room
  have twice :
      2 * draw.quanta = (count : Int) * (2 * quantaPerGrain : Nat) := by
    rw [counted]
    push_cast
    ring
  have less : 2 * draw.quanta - quantaPerOne =
      ((count : Int) - 0x10000000000000) * (2 * quantaPerGrain : Nat) := by
    rw [twice, quantaPerOne_eq_grains]
    push_cast
    ring
  rw [less, twice]
  exact ⟨exact (by omega), exact (by omega)⟩

/-- What a weighted sum makes of a grain, when the weight is two. -/
theorem weigh (grain : draw.IsGrain) {weight : Binary64}
    (weighs : weight.Denotes 2) :
    ((sum [draw]).mul weight).Counts (2 * draw.quanta) :=
  grain.1.sum_singleton.mul weighs (by ring) grain.isExact_twice.1

/--
A signal of twice a grain, less one, asks for the step that the grain stands
for.
-/
theorem unitStep (grain : draw.IsGrain)
    (counts : x.Counts (2 * draw.quanta - quantaPerOne)) :
    x.unitStep = draw.drawnStep := by
  have number : x.isNaN = false := isNaN_of_finite counts.finite
  have other : x ≠ belowHalf := by
    rintro rfl
    obtain ⟨count, -, counted⟩ := grain.exists_count
    have whole : (quantaPerGrain : Int) ∣ belowHalf.quanta := by
      rw [counts.quanta, counted, quantaPerOne_eq_grains, Nat.cast_mul,
        Nat.cast_mul]
      exact dvd_sub (Dvd.dvd.mul_left (dvd_mul_left _ _) _) (dvd_mul_left _ _)
    exact absurd whole (by decide +kernel)
  have up := nearestStep_eq_one_iff number
  have down := nearestStep_eq_neg_one_iff number
  rw [atMost_iff (by decide) number, counts.quanta] at up
  rw [less_iff number (by decide), counts.quanta, quanta_minusHalf] at down
  have range := nearestStep_between x
  have halved := quanta_half
  rw [unitStep_eq, if_neg other, drawnStep_eq]
  split
  · omega
  · split <;> omega

end IsGrain

end Binary64

end NeuralGenome
