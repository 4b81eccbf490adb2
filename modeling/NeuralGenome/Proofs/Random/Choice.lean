import NeuralGenome.ListPosition
import NeuralGenome.Random.Generator

/-!
# Choices within a list

Breeding asks a source for two positions in a list of parents.  A source that
repeats given numbers may answer with anything, and no source can be asked about
lists of every size, so what is expected of a source is stated for its states
and for some sizes: from these states it chooses places of a list of such a
size, and it never leaves them.  Seeded sequences meet the expectation in every
state and for every size.
-/

namespace NeuralGenome

open ListPosition (Within)

/--
A place of a list, counted from the start, holds an element that can be found
there.
-/
theorem ListPosition.Within.exists_find {Element : Type} {list : List Element}
    {position : Int} (within : Within list.length position) :
    ∃ element ∈ list, find list position = .ok element := by
  have inside : position.toNat < list.length := by
    have := within.1
    have := within.2
    omega
  refine ⟨list[position.toNat], List.getElem_mem inside, ?_⟩
  rw [find, get?, within.place?, Option.bind_some,
    List.getElem?_eq_getElem inside]

namespace DrawSource

variable {Source : Type} [DrawSource Source]

/--
From these states a source chooses two places of every list that has such a size
and is not empty, and it stays among them.  Nothing is expected of the numbers
that it draws.
-/
structure ChoosesWithin (sizes : Nat → Prop) (states : Source → Prop) :
    Prop where
  next : ∀ source, states source → states (next source).2
  nextPair : ∀ (length : Nat) (source : Source), 0 < length → sizes length →
    states source → ∃ first second after,
      (nextPair length).run source = (.ok (first, second), after) ∧
        Within length first ∧ Within length second ∧ states after

theorem ChoosesWithin.take {sizes : Nat → Prop} {states : Source → Prop}
    (choosing : ChoosesWithin sizes states) (count : Nat) {source : Source}
    (start : states source) : states (DrawSource.take count source).2 := by
  induction count generalizing source with
  | zero => exact start
  | succ count ih => exact ih (choosing.next source start)

end DrawSource

/-! ## Seeded sequences -/

namespace Permuted

theorem nextBelow_lt {bound : Nat} (threshold : Nat) (positive : 0 < bound)
    (redraws : Nat) (generator : Permuted) :
    (nextBelow bound threshold redraws generator).1 < bound := by
  have scaled (word : UInt32) : (word.toNat * bound) >>> 32 < bound := by
    rw [Nat.shiftRight_eq_div_pow, Nat.div_lt_iff_lt_mul (by decide),
      Nat.mul_comm bound]
    exact Nat.mul_lt_mul_of_pos_right word.toNat_lt positive
  induction redraws generalizing generator with
  | zero => exact scaled generator.next32.1
  | succ redraws ih =>
      rcases drawn : generator.next32 with ⟨word, later⟩
      simp only [nextBelow, drawn]
      split
      · exact ih later
      · exact scaled word

theorem nextPosition_lt {length : Nat} (positive : 0 < length)
    (generator : Permuted) : (nextPosition length generator).1 < length := by
  unfold nextPosition
  split
  · exact positive
  · exact nextBelow_lt _ positive _ generator

/-- A seeded sequence chooses within the list, whatever it has drawn before. -/
theorem choosesWithin (sizes : Nat → Prop) :
    DrawSource.ChoosesWithin sizes fun _ : Permuted => True where
  next _ _ := trivial
  nextPair length generator positive _ _ := by
    refine ⟨_, _, _, rfl, ?_, ?_, trivial⟩
    · have first := nextPosition_lt positive generator
      exact ⟨Int.natCast_nonneg _, Int.ofNat_lt.mpr first⟩
    · have second := nextPosition_lt positive (nextPosition length generator).2
      exact ⟨Int.natCast_nonneg _, Int.ofNat_lt.mpr second⟩

end Permuted

namespace Generator

/-- Whether draws come from a seed and not from a script. -/
def IsSeeded (generator : Generator) : Prop :=
  ∃ sequence, generator = .seeded sequence

theorem choosesWithin (sizes : Nat → Prop) :
    DrawSource.ChoosesWithin sizes IsSeeded where
  next := by
    rintro _ ⟨sequence, rfl⟩
    exact ⟨_, rfl⟩
  nextPair := by
    rintro length _ positive asked ⟨sequence, rfl⟩
    obtain ⟨first, second, after, run, firstWithin, secondWithin, -⟩ :=
      (Permuted.choosesWithin sizes).nextPair length sequence positive asked
        trivial
    refine ⟨first, second, .seeded after, ?_, firstWithin, secondWithin,
      after, rfl⟩
    show Prod.map id seeded ((DrawSource.nextPair length).run sequence) = _
    rw [run]
    rfl

end Generator

end NeuralGenome
