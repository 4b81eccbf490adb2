import NeuralGenome.Breeding.Breeder
import NeuralGenome.Proofs.Journal.Outcome
import NeuralGenome.Proofs.Random.Choice

/-!
# One generation

Every child of a generation has two parents that the source chooses, and no
child has a say in the next one.  So it is enough to know what two parents have
for a child: a breeder *begets* a property from another when any two parents
with the one, and any draws, give a child with the other.  Then all children of
a population have it, and there are as many as are asked for.
-/

namespace NeuralGenome

namespace Breeder

variable {Source : Type} [DrawSource Source] {sizes : Nat → Prop}
  {states : Source → Prop} {source : Source}

/--
Where there are parents, a population is bred as so many children; counting
those that can be decoded draws nothing.
-/
theorem ends_breedPopulation_iff {breeder : Breeder}
    {parents children : List Chromosome}
    (populated : parents ≠ []) {count : Int} (allowed : 0 ≤ count)
    {after : Source} :
    Lab.Ends (breeder.breedPopulation parents count) source
        (.ok children) after ↔
      Lab.Ends (breeder.breedMany parents count.toNat) source (.ok children)
        after := by
  have occupied : ¬parents.isEmpty := by
    simpa using populated
  unfold breedPopulation
  rw [if_neg occupied, if_neg (Int.not_lt.mpr allowed)]
  constructor
  · intro ends journal
    obtain ⟨noted, done⟩ := ends journal
    obtain ⟨bred, bench, many, rest⟩ := Procedure.run_bind_eq_ok.mp done
    cases rest
    exact ⟨bench.journal, many⟩
  · intro bred
    exact bred.bind ((Lab.Ends.note _ after).bind (.pure children after))

/-- A child is bred from the two parents whose positions the source chooses. -/
theorem ends_breedOne {breeder : Breeder} {parents : List Chromosome}
    {position position' : Int} {first second : Chromosome}
    {middle after : Source} {outcome : Except Fault Chromosome}
    (chosen : (DrawSource.nextPair parents.length).run source =
      (.ok (position, position'), middle))
    (found : ListPosition.find parents position = .ok first)
    (found' : ListPosition.find parents position' = .ok second)
    (bred : Lab.Ends (breeder.breed first second) middle outcome after) :
    Lab.Ends (breeder.breedOne parents) source outcome after := by
  have choice := Lab.Ends.choosePair parents.length source
  rw [chosen] at choice
  have read {position : Int} {parent : Chromosome}
      (found : ListPosition.find parents position = .ok parent) :
      Lab.Ends (Procedure.ofExcept (ListPosition.find parents position)) middle
        (.ok parent) middle := by
    rw [found]
    exact .ofExcept _ middle
  exact choice.bind ((read found).bind ((read found').bind bred))

/--
Two fit parents have a child, with the second property, whatever is drawn.
-/
def Begets (breeder : Breeder) (states : Source → Prop)
    (fit born : Chromosome → Prop) : Prop :=
  ∀ first second source, fit first → fit second → states source →
    ∃ child after,
      Lab.Ends (breeder.breed first second) source (.ok child) after ∧
        born child ∧ states after

namespace Begets

variable {breeder : Breeder} {fit born : Chromosome → Prop}
  {parents : List Chromosome}

theorem breedOne (begets : breeder.Begets states fit born)
    (choosing : DrawSource.ChoosesWithin sizes states)
    (populated : parents ≠ [])
    (asked : sizes parents.length) (suited : ∀ parent ∈ parents, fit parent)
    (start : states source) :
    ∃ child after,
      Lab.Ends (breeder.breedOne parents) source (.ok child) after ∧
        born child ∧ states after := by
  obtain ⟨position, position', middle, run, within, within', reached⟩ :=
    choosing.nextPair parents.length source
      (List.length_pos_iff.mpr populated) asked start
  obtain ⟨first, member, found⟩ := within.exists_find
  obtain ⟨second, member', found'⟩ := within'.exists_find
  obtain ⟨child, after, bred, isBorn, ended⟩ :=
    begets first second middle (suited first member)
      (suited second member') reached
  exact ⟨child, after, ends_breedOne run found found' bred, isBorn, ended⟩

theorem breedMany (begets : breeder.Begets states fit born)
    (choosing : DrawSource.ChoosesWithin sizes states)
    (populated : parents ≠ [])
    (asked : sizes parents.length) (suited : ∀ parent ∈ parents, fit parent)
    (count : Nat) (start : states source) :
    ∃ children after,
      Lab.Ends (breeder.breedMany parents count) source (.ok children) after ∧
        children.length = count ∧ (∀ child ∈ children, born child) ∧
        states after := by
  induction count generalizing source with
  | zero => exact ⟨[], source, .pure [] source, rfl, nofun, start⟩
  | succ count ih =>
      obtain ⟨child, middle, first, isBorn, reached⟩ :=
        begets.breedOne choosing populated asked suited start
      obtain ⟨children, after, later, counted, areBorn, ended⟩ := ih reached
      exact ⟨child :: children, after, first.bind (later.bind (.pure _ after)),
        congrArg Nat.succ counted,
        List.forall_mem_cons.mpr ⟨isBorn, areBorn⟩, ended⟩

/-- A generation that may be asked for is bred in full. -/
theorem breedPopulation (begets : breeder.Begets states fit born)
    (choosing : DrawSource.ChoosesWithin sizes states)
    (populated : parents ≠ [])
    (asked : sizes parents.length) (suited : ∀ parent ∈ parents, fit parent)
    {count : Int} (allowed : 0 ≤ count) (start : states source) :
    ∃ children after,
      Lab.Ends (breeder.breedPopulation parents count) source (.ok children)
          after ∧
        children.length = count ∧ (∀ child ∈ children, born child) ∧
        states after := by
  obtain ⟨children, after, bred, counted, areBorn, ended⟩ :=
    begets.breedMany choosing populated asked suited count.toNat start
  exact ⟨children, after, (ends_breedPopulation_iff populated allowed).mpr bred,
    by omega, areBorn, ended⟩

end Begets

/-- Without parents there is no generation, also none without children. -/
theorem ends_breedPopulation_nil (breeder : Breeder) (count : Int)
    (source : Source) :
    Lab.Ends (breeder.breedPopulation [] count) source (.error .noParents)
      source :=
  fun journal => ⟨journal, rfl⟩

end Breeder

end NeuralGenome
