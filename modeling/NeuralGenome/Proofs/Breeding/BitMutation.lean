import NeuralGenome.Proofs.Breeding.WeightMutation
import NeuralGenome.Proofs.Genome.BitString
import NeuralGenome.Proofs.Random.Draws

/-!
# Mutation of any bits

A genome whose bits may all flip takes one draw for each bit, in order, and is
the exclusive or of its own bits and those that the draws select.  Everything
else follows from the laws of flipping: how many bits change, what the two
extreme probabilities do, that the same draws undo a mutation, and that two
mutations can be exchanged.
-/

namespace NeuralGenome

namespace Probability

variable {probability : Probability} {draw : Binary64}

/-- Nothing that is at least zero falls under zero. -/
theorem covers_of_zero (zero : probability.value.sameNumber .zero)
    (fraction : draw.IsFraction) : probability.covers draw = false := by
  have rank : probability.value.rank = 0 := by
    rw [Binary64.sameNumber, Bool.and_eq_true, beq_iff_eq] at zero
    exact zero.2
  have lower := fraction.1
  rw [Binary64.atMost, Bool.and_eq_true, decide_eq_true_iff] at lower
  have above : ¬draw.rank < probability.value.rank := by
    rw [rank]
    exact Int.not_lt.mpr lower.2
  rw [covers, Binary64.less, decide_eq_false above, Bool.and_false]

/-- Everything below one falls under one. -/
theorem covers_of_one (one : probability.value.sameNumber .one)
    (fraction : draw.IsFraction) : probability.covers draw = true := by
  rw [Binary64.sameNumber, Bool.and_eq_true, Bool.and_eq_true,
    beq_iff_eq] at one
  have upper := fraction.2
  rw [Binary64.less, Bool.and_eq_true, Bool.and_eq_true] at upper
  rw [covers, Binary64.less, one.1.1, one.2, upper.1.1, upper.2]
  rfl

end Probability

theorem DrawSource.length_of_take_eq {Source : Type} [DrawSource Source]
    {count : Nat} {source after : Source} {draws : List Binary64}
    (drawn : take count source = (draws, after)) : draws.length = count := by
  have counted := length_take count source
  rwa [drawn] at counted

namespace Mutation

@[simp]
theorem length_mask (probability : Probability) (draws : List Binary64) :
    (mask probability draws).length = draws.length :=
  List.length_map _

theorem getElem?_mask (probability : Probability) {draws : List Binary64}
    {place : Nat} {draw : Binary64} (drawn : draws[place]? = some draw) :
    (mask probability draws)[place]? = some (probability.covers draw) := by
  rw [mask, List.getElem?_map, drawn, Option.map_some]

theorem flips_mask (probability : Probability) (draws : List Binary64) :
    Bits.flips (mask probability draws) = draws.countP probability.covers := by
  rw [Bits.flips, mask, List.count_eq_countP, List.countP_map]
  exact List.countP_congr fun draw _ => by rw [Function.comp_apply, beq_true]

/-- A genome with those bits flipped that draws select. -/
def flipped (probability : Probability) (draws : List Binary64)
    (chromosome : Chromosome) : Chromosome :=
  ⟨Bits.flip (mask probability draws) chromosome.bytes⟩

section Flipped

variable {probability : Probability} {chromosome : Chromosome}
  {draws : List Binary64}

theorem length_mask_eq (counted : draws.length = 8 * chromosome.length) :
    (mask probability draws).length = 8 * chromosome.bytes.length :=
  (length_mask probability draws).trans counted

theorem length_flipped (counted : draws.length = 8 * chromosome.length) :
    (flipped probability draws chromosome).length = chromosome.length :=
  Bits.length_flip (length_mask_eq counted)

/--
A bit is turned exactly when the draw in its place falls under the probability.
-/
theorem exists_bit_flipped (counted : draws.length = 8 * chromosome.length)
    {place : Nat} (inside : place < 8 * chromosome.length) :
    ∃ draw, draws[place]? = some draw ∧
      Bits.bit (flipped probability draws chromosome).bytes place =
        Bool.xor (Bits.bit chromosome.bytes place)
          (draw.less probability.value) := by
  have found := List.getElem?_eq_getElem (counted.symm ▸ inside)
  exact ⟨_, found,
    Bits.bit_flip (length_mask_eq counted) (getElem?_mask probability found)⟩

/-- The same draws undo a mutation. -/
theorem flipped_flipped (counted : draws.length = 8 * chromosome.length) :
    flipped probability draws (flipped probability draws chromosome) =
      chromosome :=
  congrArg Chromosome.mk (Bits.flip_flip (length_mask_eq counted))

/-- Two mutations can be exchanged. -/
theorem flipped_comm {probability' : Probability} {others : List Binary64}
    (counted : draws.length = 8 * chromosome.length)
    (countedToo : others.length = 8 * chromosome.length) :
    flipped probability draws (flipped probability' others chromosome) =
      flipped probability' others (flipped probability draws chromosome) :=
  congrArg Chromosome.mk
    (Bits.flip_comm (length_mask_eq counted) (length_mask_eq countedToo))

end Flipped

/-! ## Mutation at a bench -/

variable {Source : Type} [DrawSource Source] {source after : Source}
  {chromosome : Chromosome} {draws : List Binary64}

/-- Any bits are flipped with as many draws as there are bits. -/
theorem ends_mutateBits (probability : Probability)
    (drawn : DrawSource.take (8 * chromosome.length) source = (draws, after)) :
    Lab.Ends (mutateBits probability chromosome) source
      (.ok (flipped probability draws chromosome)) after := by
  obtain ⟨bytes⟩ := chromosome
  cases bytes with
  | nil =>
      cases drawn
      exact .pure _ source
  | cons byte rest =>
      have flip := ends_flipBytes probability (byte :: rest) source
      rw [Chromosome.length] at drawn
      rw [drawn] at flip
      exact flip.bind (.pure _ after)

/--
Mutation of any bits is settled for all byte strings and all draws from zero to
one.  It takes one draw for each bit and gives a genome of the same length, in
which a bit is turned exactly when the draw in its place falls under the
probability.  So as many bits differ as draws fall under it; probability zero
gives the genome itself, and one gives the complement of every byte.  Mutating
with the same draws again restores the genome, and mutating with two rows of
draws, even under two probabilities, gives the same in either order.
-/
theorem mutateBits_settled (probability : Probability)
    (drawn : DrawSource.take (8 * chromosome.length) source = (draws, after))
    (fractions : ∀ draw ∈ draws, draw.IsFraction) :
    ∃ mutant,
      Lab.Ends (mutateBits probability chromosome) source (.ok mutant) after ∧
      mutant.length = chromosome.length ∧
      (∀ place < 8 * chromosome.length, ∃ draw, draws[place]? = some draw ∧
        Bits.bit mutant.bytes place =
          Bool.xor (Bits.bit chromosome.bytes place)
            (draw.less probability.value)) ∧
      ((List.range (8 * chromosome.length)).countP fun place =>
          Bits.bit mutant.bytes place != Bits.bit chromosome.bytes place) =
        draws.countP (·.less probability.value) ∧
      (probability.value.sameNumber .zero → mutant = chromosome) ∧
      (probability.value.sameNumber .one →
        mutant.bytes = chromosome.bytes.map (~~~ ·)) ∧
      (∀ {Other : Type} [DrawSource Other] (other later : Other),
        DrawSource.take (8 * chromosome.length) other = (draws, later) →
          Lab.Ends (mutateBits probability mutant) other (.ok chromosome)
            later) ∧
      ∀ {Other : Type} [DrawSource Other] (probability' : Probability)
          (other later : Other) (others : List Binary64),
        DrawSource.take (8 * chromosome.length) other = (others, later) →
          ∃ mutant' both,
            Lab.Ends (mutateBits probability' chromosome) other
              (.ok mutant') later ∧
            Lab.Ends (mutateBits probability' mutant) other (.ok both) later ∧
            Lab.Ends (mutateBits probability mutant') source (.ok both)
              after := by
  have counted : draws.length = 8 * chromosome.length :=
    DrawSource.length_of_take_eq drawn
  have length :
      (flipped probability draws chromosome).length = chromosome.length :=
    length_flipped counted
  have places : (mask probability draws).length = 8 * chromosome.bytes.length :=
    length_mask_eq counted
  refine ⟨flipped probability draws chromosome,
    ends_mutateBits probability drawn, length,
    fun place inside => exists_bit_flipped counted inside, ?_, ?_, ?_, ?_, ?_⟩
  · exact (Bits.countP_bit_flip places).trans (flips_mask probability draws)
  · intro zero
    have silent : ∀ chosen ∈ mask probability draws, chosen = false :=
      List.forall_mem_map.mpr fun draw member =>
        Probability.covers_of_zero zero (fractions draw member)
    exact congrArg Chromosome.mk (Bits.flip_eq_self places silent)
  · intro one
    have full : ∀ chosen ∈ mask probability draws, chosen = true :=
      List.forall_mem_map.mpr fun draw member =>
        Probability.covers_of_one one (fractions draw member)
    exact Bits.flip_eq_complement places full
  · intro Other _ other later drawnAgain
    have drawnLater : DrawSource.take
      (8 * (flipped probability draws chromosome).length) other =
        (draws, later) := by rw [length, drawnAgain]
    have restored := ends_mutateBits probability drawnLater
    rwa [flipped_flipped counted] at restored
  · intro Other _ probability' other later others drawnToo
    have countedToo : others.length = 8 * chromosome.length :=
      DrawSource.length_of_take_eq drawnToo
    have drawnLater : DrawSource.take
      (8 * (flipped probability draws chromosome).length) other =
        (others, later) := by rw [length, drawnToo]
    have drawnBefore :
        DrawSource.take (8 * (flipped probability' others chromosome).length)
          source = (draws, after) := by
      rw [length_flipped countedToo, drawn]
    have exchanged := ends_mutateBits probability drawnBefore
    rw [flipped_comm counted countedToo] at exchanged
    exact ⟨_, _, ends_mutateBits probability' drawnToo,
      ends_mutateBits probability' drawnLater, exchanged⟩

/-- A script of zero and one half in turn. -/
def alternating : Script :=
  .ofList [.zero, .half]

/-- Under one half, every other bit of two bytes is turned and turned back. -/
theorem mutateBits_settled_alternating :
    (∀ draw ∈ (DrawSource.take 16 alternating).1, draw.IsFraction) ∧
      ∃ mutant after,
        Lab.Ends (mutateBits ⟨.half, by decide⟩ ⟨[0x80, 0x01]⟩) alternating
            (.ok mutant) after ∧
          after.used = 16 ∧ Bits.bit mutant.bytes 0 = false ∧
            Bits.bit mutant.bytes 15 = true ∧
          ((List.range 16).countP fun place =>
            Bits.bit mutant.bytes place != Bits.bit [0x80, 0x01] place) = 8 ∧
          Lab.Ends (mutateBits ⟨.half, by decide⟩ mutant) alternating
            (.ok ⟨[0x80, 0x01]⟩) after := by
  have fractions : ∀ draw ∈ (DrawSource.take 16 alternating).1,
      draw.IsFraction := by decide
  have drawn :
      DrawSource.take (8 * (⟨[0x80, 0x01]⟩ : Chromosome).length) alternating =
        ((DrawSource.take 16 alternating).1, ⟨[.zero, .half], 16⟩) := rfl
  obtain ⟨mutant, ends, -, turned, differ, -, -, restores, -⟩ :=
    mutateBits_settled ⟨.half, by decide⟩ drawn fractions
  obtain ⟨_, found, first⟩ := turned 0 (by decide)
  obtain ⟨_, found', last⟩ := turned 15 (by decide)
  cases found
  cases found'
  exact ⟨fractions, mutant, _, ends, rfl, first, last, differ,
    restores _ _ drawn⟩

end Mutation

end NeuralGenome
