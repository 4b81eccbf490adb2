import NeuralGenome.Proofs.Binary64.Grains
import NeuralGenome.Random.Generator

/-!
# What a source hands out

A property of draws is a property of a whole source when every draw that it will
ever hand out has it.  A source keeps such a property however much is drawn.
The draws of a script are those that it repeats, and those of a seeded sequence
are grains.
-/

namespace NeuralGenome

namespace DrawSource

variable {Source : Type} [DrawSource Source] {allowed : Binary64 → Prop}
  {source : Source}

/-- A source hands out nothing else, however often it is asked. -/
def Only (allowed : Binary64 → Prop) (source : Source) : Prop :=
  ∀ count, ∀ draw ∈ (take count source).1, allowed draw

theorem Only.later (only : Only allowed source) (count : Nat) :
    Only allowed (take count source).2 := by
  intro more draw member
  refine only (count + more) draw ?_
  rw [take_add]
  exact List.mem_append_right _ member

/-- A source whose states all hand out what is allowed, and stay such states. -/
theorem Only.of_states (states : Source → Prop) (start : states source)
    (step : ∀ source, states source → allowed (next source).1 ∧
      states (next source).2) :
    Only allowed source := by
  intro count
  induction count generalizing source with
  | zero => exact fun _ member => absurd member List.not_mem_nil
  | succ count ih =>
      rw [take_succ]
      exact List.forall_mem_cons.mpr
        ⟨(step source start).1, ih (step source start).2⟩

end DrawSource

/-- A script hands out the draws that it repeats. -/
theorem Script.only_of_forall {allowed : Binary64 → Prop}
    {draws : List Binary64}
    (every : ∀ draw ∈ draws, allowed draw) (some : draws ≠ []) (used : Nat) :
    DrawSource.Only allowed (⟨draws, used⟩ : Script) := by
  refine .of_states (fun script : Script => script.draws = draws) rfl ?_
  rintro ⟨_, used⟩ rfl
  refine ⟨every _ ?_, rfl⟩
  have inside := Nat.mod_lt used (List.length_pos_iff.mpr some)
  show (_ : List Binary64).getD _ _ ∈ _
  rw [List.getD_eq_getElem?_getD, List.getElem?_eq_getElem inside]
  exact List.getElem_mem inside

/-! ## Seeded sequences -/

namespace Binary64

theorem isFraction_ofMagnitude {magnitude : Nat}
    (below : magnitude < 0x3ff0000000000000) :
    (ofMagnitude false magnitude).IsFraction := by
  have small : magnitude < 0x8000000000000000 := Nat.lt_trans below (by decide)
  have number : (ofMagnitude false magnitude).isNaN = false :=
    isNaN_of_finite (by
      rw [magnitude_ofMagnitude false small]
      exact Nat.lt_trans below (by decide))
  have rank : (ofMagnitude false magnitude).rank = magnitude := by
    rw [Binary64.rank, isNegative_ofMagnitude false small,
      magnitude_ofMagnitude false small]
    rfl
  have zero : Binary64.zero.isNaN = false ∧ Binary64.zero.rank = 0 := by decide
  have one : Binary64.one.isNaN = false ∧
      Binary64.one.rank = 0x3ff0000000000000 := by decide
  rw [IsFraction, atMost, less, number, rank, zero.1, zero.2, one.1, one.2]
  simpa using below

/-- Fifty-three bits that are moved behind the point make a number below one. -/
theorem isFraction_rounded {number bits : Nat}
    (short : number < 0x20000000000000) (behind : bits = 1021) :
    (rounded false (number <<< bits) 1).IsFraction := by
  have exact : IsExact (number <<< bits) := isExact_shiftLeft short (by omega)
  refine isFraction_ofMagnitude ?_
  have one : 0x3ff0000000000000 =
      bits * 0x10000000000000 + 0x20000000000000 := by omega
  rw [one, ← quantaOfMagnitude_strictMono.lt_iff_lt,
    exact.quantaOfMagnitude_rounded,
      quantaOfMagnitude_add (Nat.le_refl _) (.inr (by decide)),
      Nat.shiftLeft_eq, Nat.shiftLeft_eq]
  exact Nat.mul_lt_mul_of_pos_right short (Nat.two_pow_pos bits)

/-- More than that, it is a grain. -/
theorem isGrain_rounded {number bits : Nat} (short : number < 0x20000000000000)
    (behind : bits = 1021) : (rounded false (number <<< bits) 1).IsGrain := by
  refine ⟨isFraction_rounded short behind, number, value_eq_grains_iff.mpr ?_⟩
  subst behind
  rw [(rounded_of_isExact (isExact_shiftLeft short (by decide)) false).2,
    mul_quantaPerGrain]
  rfl

end Binary64

/-- The draws of a seeded sequence are grains. -/
theorem Permuted.only_isGrain (generator : Permuted) :
    DrawSource.Only Binary64.IsGrain generator := by
  refine .of_states (fun _ => True) trivial fun generator _ => ⟨?_, trivial⟩
  refine Binary64.isGrain_rounded ?_ rfl
  rw [Nat.shiftRight_eq_div_pow, Nat.div_lt_iff_lt_mul (by decide)]
  exact generator.next64.1.isLt

/-- In particular they lie between zero and one. -/
theorem Permuted.only_isFraction (generator : Permuted) :
    DrawSource.Only Binary64.IsFraction generator :=
  fun count draw member => (generator.only_isGrain count draw member).1

end NeuralGenome
