import NeuralGenome.Proofs.Breeding.Crossover
import NeuralGenome.Proofs.Breeding.Generation
import NeuralGenome.Proofs.Breeding.WeightMutation

/-!
# Inheritance along a line of generations

Crossover moves genes to other places of a program, counted from its start, but
never changes their distance from its end.  Counted from there every opcode of a
descendant was an opcode of some founder, and the gene itself was a founder's
unless its weight has been flipped since.  `Chromosome.Inherits` says so for one
genome and its ancestors.  It holds for the steps that make a child and passes
from generation to generation.
-/

namespace NeuralGenome

namespace Chromosome

/-- A chromosome carries a gene at some distance from the end of its program. -/
def Bears (chromosome : Chromosome) (distance : Nat) (gene : Gene) : Prop :=
  ∃ program, chromosome.program = .ok program ∧
    program.reverse[distance]? = some gene

/--
What a genome has from its ancestors, when genes of some opcodes are kept whole.
-/
structure Inherits (kept : Opcode → Prop) (ancestors : List Chromosome)
    (descendant : Chromosome) : Prop where
  isDecodable : descendant.isDecodable
  frameCount : ∃ ancestor ∈ ancestors,
    descendant.frameCount = ancestor.frameCount
  opcode : ∀ distance gene, descendant.Bears distance gene →
    ∃ ancestor ∈ ancestors, ∃ other, ancestor.Bears distance other ∧
      gene.opcode = other.opcode
  gene : ∀ distance gene, descendant.Bears distance gene →
    kept gene.opcode → ∃ ancestor ∈ ancestors, ancestor.Bears distance gene

variable {kept : Opcode → Prop} {ancestors parents : List Chromosome}

theorem Inherits.of_mem {chromosome : Chromosome}
    (decodable : chromosome.isDecodable) (member : chromosome ∈ ancestors) :
    Inherits kept ancestors chromosome where
  isDecodable := decodable
  frameCount := ⟨chromosome, member, rfl⟩
  opcode _ gene borne := ⟨chromosome, member, gene, borne, rfl⟩
  gene _ _ borne _ := ⟨chromosome, member, borne⟩

/--
To inherit, every gene of a program needs an ancestor that it is passed down
from.
-/
theorem Inherits.of_program {descendant : Chromosome} {program : Program}
    (decoded : descendant.program = .ok program)
    (frameCount : ∃ ancestor ∈ ancestors,
      descendant.frameCount = ancestor.frameCount)
    (passed : ∀ distance gene, program.reverse[distance]? = some gene →
      ∃ ancestor ∈ ancestors, ∃ other, ancestor.Bears distance other ∧
        gene.opcode = other.opcode ∧ (kept gene.opcode → gene = other)) :
    Inherits kept ancestors descendant := by
  have traced {distance : Nat} {gene : Gene}
      (borne : descendant.Bears distance gene) :
      program.reverse[distance]? = some gene := by
    obtain ⟨_, same, held⟩ := borne
    rw [decoded] at same
    cases same
    exact held
  refine ⟨isDecodable_iff_exists_program.mpr ⟨program, decoded⟩, frameCount,
    ?_, ?_⟩
  · intro distance gene borne
    obtain ⟨ancestor, member, other, before, same, -⟩ :=
      passed distance gene (traced borne)
    exact ⟨ancestor, member, other, before, same⟩
  · intro distance gene borne keeps
    obtain ⟨ancestor, member, other, before, -, whole⟩ :=
      passed distance gene (traced borne)
    rw [whole keeps]
    exact ⟨ancestor, member, before⟩

/--
What parents have from their ancestors, their children have from them too.
-/
theorem Inherits.trans {descendant : Chromosome}
    (later : Inherits kept parents descendant)
    (earlier : ∀ parent ∈ parents, Inherits kept ancestors parent) :
    Inherits kept ancestors descendant where
  isDecodable := later.isDecodable
  frameCount := by
    obtain ⟨parent, member, same⟩ := later.frameCount
    obtain ⟨ancestor, found, equal⟩ := (earlier parent member).frameCount
    exact ⟨ancestor, found, same.trans equal⟩
  opcode := by
    intro distance gene borne
    obtain ⟨parent, member, other, borneBefore, same⟩ :=
      later.opcode distance gene borne
    obtain ⟨ancestor, found, first, borneFirst, equal⟩ :=
      (earlier parent member).opcode distance other borneBefore
    exact ⟨ancestor, found, first, borneFirst, same.trans equal⟩
  gene := by
    intro distance gene borne keeps
    obtain ⟨parent, member, borneBefore⟩ := later.gene distance gene borne keeps
    exact (earlier parent member).gene distance gene borneBefore keeps

end Chromosome

open Chromosome (Inherits)

variable {Source : Type} [DrawSource Source] {sizes : Nat → Prop}
  {states : Source → Prop} {source : Source}

/-! ## Crossover -/

theorem Crossover.inherits_child {kept : Opcode → Prop}
    {first second : Chromosome} {left right : Program} {draws : List Binary64}
    (decodedFirst : first.program = .ok left)
    (decodedSecond : second.program = .ok right)
    (drawn : draws.length = max left.length right.length) :
    Inherits kept [first, second] (.ofProgram (child left right draws)) := by
  refine .of_program (Chromosome.program_ofProgram _) ?_ ?_
  · rw [← Chromosome.length_of_program (Chromosome.program_ofProgram _),
      length_child drawn]
    rcases Nat.le_total right.length left.length with shorter | longer
    · refine ⟨first, by simp, ?_⟩
      rw [Nat.max_eq_left shorter, Chromosome.length_of_program decodedFirst]
    · refine ⟨second, by simp, ?_⟩
      rw [Nat.max_eq_right longer, Chromosome.length_of_program decodedSecond]
  · intro distance gene held
    rcases getElem?_reverse_child drawn held with fromLeft | fromRight
    · exact ⟨first, by simp, gene, ⟨left, decodedFirst, fromLeft⟩, rfl,
        fun _ => rfl⟩
    · exact ⟨second, by simp, gene, ⟨right, decodedSecond, fromRight⟩, rfl,
        fun _ => rfl⟩

theorem Crossover.length_ofProgram_child {first second : Chromosome}
    {left right : Program} {draws : List Binary64} {genes : Nat}
    (decodedFirst : first.program = .ok left)
    (decodedSecond : second.program = .ok right)
    (drawn : draws.length = max left.length right.length)
    (long : first.length = genes * Frame.size)
    (longToo : second.length = genes * Frame.size) :
    (Chromosome.ofProgram (child left right draws)).length =
      genes * Frame.size := by
  have whole {chromosome : Chromosome} {program : Program}
      (decoded : chromosome.program = .ok program)
      (long : chromosome.length = genes * Frame.size) : program.length =
        genes := by
    rw [Chromosome.length_of_program decoded, Chromosome.frameCount, long,
      Nat.mul_div_cancel _ (by decide)]
  rw [Chromosome.length, Chromosome.bytes_ofProgram, Program.length_encode,
    length_child drawn, whole decodedFirst long, whole decodedSecond longToo,
    Nat.max_self]

/--
However two parents are combined, the result has its genes from them, and so
many of them where both have so many and no fragment.
-/
theorem Reproduction.exists_ends_combine (kept : Opcode → Prop)
    (choosing : DrawSource.ChoosesWithin sizes states)
    (reproduction : Reproduction) {first second : Chromosome}
    (decodable : first.isDecodable) (decodableToo : second.isDecodable)
    (start : states source) :
    ∃ child after,
      Lab.Ends (reproduction.combine first second) source (.ok child) after ∧
        Inherits kept [first, second] child ∧
        (∀ genes, first.length = genes * Frame.size →
          second.length = genes * Frame.size →
            child.length = genes * Frame.size) ∧
        states after := by
  have fromFirst : Inherits kept [first, second] first :=
    .of_mem decodable (by simp)
  have fromSecond : Inherits kept [first, second] second :=
    .of_mem decodableToo (by simp)
  cases reproduction with
  | firstParent =>
      exact ⟨first, source, .pure first source, fromFirst,
        fun _ long _ => long, start⟩
  | randomParent =>
      refine ⟨_, _, (Lab.Ends.draw _ source).bind (.pure _ _), ?_, ?_,
        choosing.next source start⟩
      · split
        · exact fromFirst
        · exact fromSecond
      · intro genes long longToo
        split
        · exact long
        · exact longToo
  | randomCodes =>
      obtain ⟨left, decodedFirst⟩ :=
        Chromosome.isDecodable_iff_exists_program.mp decodable
      obtain ⟨right, decodedSecond⟩ :=
        Chromosome.isDecodable_iff_exists_program.mp decodableToo
      have drawn := DrawSource.length_take (max left.length right.length) source
      refine ⟨_, _, Crossover.ends_cross decodedFirst decodedSecond source,
        Crossover.inherits_child decodedFirst decodedSecond drawn, ?_,
        choosing.take _ start⟩
      intro genes long longToo
      exact Crossover.length_ofProgram_child decodedFirst decodedSecond drawn
        long longToo

/-! ## Mutation -/

namespace Mutation

/--
Whether genes of an opcode stay as they are under a mutation that leaves tags
alone.
-/
def Keeps (mutation : Mutation) (opcode : Opcode) : Prop :=
  mutation.kind = .nothing ∨ opcode ≠ .createWeightedSum

theorem inherits_mutant {chromosome mutant : Chromosome}
    {program genes : Program} (decoded : chromosome.program = .ok program)
    (decodedToo : mutant.program = .ok genes)
    (long : mutant.length = chromosome.length)
    (spared : List.Forall₂ SparesGene program genes) :
    Inherits (· ≠ .createWeightedSum) [chromosome] mutant := by
  refine .of_program decodedToo ⟨chromosome, by simp, ?_⟩ ?_
  · rw [Chromosome.frameCount, long]
    rfl
  · intro distance gene held
    -- Programs of equal length are spared gene by gene from either end.
    have reversed := List.forall₂_reverse_iff.mpr spared
    obtain ⟨inside, rfl⟩ := List.getElem?_eq_some_iff.mp held
    have counted : distance < program.reverse.length := by
      rwa [reversed.length_eq]
    have spares := reversed.get counted inside
    refine ⟨chromosome, by simp, program.reverse[distance],
      ⟨program, decoded, List.getElem?_eq_getElem counted⟩, spares.opcode, ?_⟩
    intro unweighted
    exact spares.unweighted fun weighted =>
      unweighted (spares.opcode.trans weighted)

/--
A mutation keeps the length, and if it does not flip tags the genes, but for
weights.
-/
theorem exists_ends_apply (choosing : DrawSource.ChoosesWithin sizes states)
    (mutation : Mutation) {chromosome : Chromosome}
    (decodable : chromosome.isDecodable) (start : states source) :
    ∃ mutant after,
      Lab.Ends (mutation.apply chromosome) source (.ok mutant) after ∧
        mutant.length = chromosome.length ∧
        (mutation.kind ≠ .bits → Inherits mutation.Keeps [chromosome] mutant) ∧
        states after := by
  cases mutation with
  | nothing =>
      exact ⟨chromosome, source, .pure chromosome source, rfl,
        fun _ => .of_mem decodable (by simp), start⟩
  | bits probability =>
      obtain ⟨mutant, after, mutated, long, ended⟩ :=
        exists_ends_mutateBits choosing probability chromosome start
      exact ⟨mutant, after, mutated, long,
        fun gentle => absurd rfl gentle, ended⟩
  | weights probability =>
      obtain ⟨program, decoded⟩ :=
        Chromosome.isDecodable_iff_exists_program.mp decodable
      obtain ⟨mutant, genes, after, mutated, long, decodedToo, spared, ended⟩ :=
        exists_ends_mutateWeights choosing probability decoded start
      have keeps : (weights probability).Keeps = (· ≠ .createWeightedSum) := by
        funext opcode
        simp [Keeps, kind]
      rw [keeps]
      exact ⟨mutant, after, mutated, long,
        fun _ => inherits_mutant decoded decodedToo long spared, ended⟩

end Mutation

/-! ## Children and generations -/

namespace Breeder

variable {breeder : Breeder} {parents : List Chromosome}

/--
The child of two genomes that can be decoded: its length and, if tags are left
alone, its inheritance.
-/
theorem exists_ends_breed (choosing : DrawSource.ChoosesWithin sizes states)
    {first second : Chromosome} (decodable : first.isDecodable)
    (decodableToo : second.isDecodable) (start : states source) :
    ∃ child after,
      Lab.Ends (breeder.breed first second) source (.ok child) after ∧
        (breeder.mutation.kind ≠ .bits →
          Inherits breeder.mutation.Keeps [first, second] child) ∧
        (∀ genes, first.length = genes * Frame.size →
          second.length = genes * Frame.size →
            child.length = genes * Frame.size) ∧
        states after := by
  obtain ⟨child, middle, combined, fromParents, measured, reached⟩ :=
    breeder.reproduction.exists_ends_combine breeder.mutation.Keeps choosing
      decodable decodableToo start
  obtain ⟨mutant, after, mutated, long, fromChild, ended⟩ :=
    Mutation.exists_ends_apply choosing breeder.mutation
      fromParents.isDecodable reached
  refine ⟨mutant, after, combined.bind mutated, ?_, ?_, ended⟩
  · intro gentle
    refine (fromChild gentle).trans ?_
    intro parent member
    rw [List.mem_singleton.mp member]
    exact fromParents
  · intro genes longFirst longSecond
    exact long.trans (measured genes longFirst longSecond)

/-- Members of a population have children that inherit from it. -/
theorem begets_inherits (choosing : DrawSource.ChoosesWithin sizes states)
    (gentle : breeder.mutation.kind ≠ .bits)
    (decodable : ∀ parent ∈ parents, parent.isDecodable) :
    breeder.Begets states (· ∈ parents)
      (Inherits breeder.mutation.Keeps parents) := by
  intro first second source member member' start
  obtain ⟨child, after, bred, fromParents, -, ended⟩ :=
    exists_ends_breed choosing (decodable first member)
      (decodable second member') start
  refine ⟨child, after, bred, (fromParents gentle).trans ?_, ended⟩
  intro parent either
  simp only [List.mem_cons, List.not_mem_nil, or_false] at either
  rcases either with rfl | rfl
  · exact .of_mem (decodable _ member) member
  · exact .of_mem (decodable _ member') member'

/--
A generation that is asked for is bred in full, and its genes come from the
parents.
-/
theorem exists_ends_breedPopulation
    (choosing : DrawSource.ChoosesWithin sizes states)
    (gentle : breeder.mutation.kind ≠ .bits) (populated : parents ≠ [])
    (asked : sizes parents.length)
    (decodable : ∀ parent ∈ parents, parent.isDecodable) {count : Int}
    (positive : 1 ≤ count) (start : states source) :
    ∃ children after,
      Lab.Ends (breeder.breedPopulation parents count) source (.ok children)
          after ∧
        children.length = count ∧
        (∀ child ∈ children, Inherits breeder.mutation.Keeps parents child) ∧
        states after := by
  exact (begets_inherits choosing gentle decodable).breedPopulation choosing
    populated asked (fun _ member => member)
    (Int.le_trans Int.one_nonneg positive) start

/--
Breed so many children in every generation, where each replaces the one before
it.
-/
def lineage (breeder : Breeder) (founders : List Chromosome)
    (counts : List Int) : Lab Source (List Chromosome) :=
  counts.foldlM breeder.breedPopulation founders

/--
However long a line of generations is, and whatever is drawn, no generation
fails as long as mutation leaves the tags alone and the source chooses parents
that there are.  All descendants can be decoded, each has as many frames as
some founder, and counted from the end it has its opcodes, and all genes but
weighted sums, from founders.  Without mutation it has all genes from them.
-/
theorem lineage_inherits (choosing : DrawSource.ChoosesWithin sizes states)
    (breeder : Breeder) (gentle : breeder.mutation.kind ≠ .bits)
    {founders : List Chromosome} (populated : founders ≠ [])
    (asked : sizes founders.length)
    (decodable : ∀ founder ∈ founders, founder.isDecodable)
    {counts : List Int} (positive : ∀ count ∈ counts, 1 ≤ count)
    (askedLater : ∀ count ∈ counts, sizes count.toNat) (start : states source) :
    ∃ descendants after,
      Lab.Ends (breeder.lineage founders counts) source (.ok descendants)
          after ∧
        descendants ≠ [] ∧
        ∀ descendant ∈ descendants,
          Inherits breeder.mutation.Keeps founders descendant := by
  induction counts generalizing founders source with
  | nil =>
      exact ⟨founders, source, .pure founders source, populated,
        fun founder member => .of_mem (decodable founder member) member⟩
  | cons count counts ih =>
      rw [List.forall_mem_cons] at positive askedLater
      obtain ⟨children, middle, bred, counted, fromFounders, reached⟩ :=
        exists_ends_breedPopulation choosing gentle populated asked decodable
          positive.1 start
      have born : children ≠ [] := by
        rintro rfl
        rw [List.length_nil] at counted
        omega
      -- The children are the founders of the generations that remain.
      have many : children.length = count.toNat := by omega
      obtain ⟨descendants, after, run, some, fromChildren⟩ := ih born
        (many.symm ▸ askedLater.1)
        (fun child member => (fromFounders child member).isDecodable)
        positive.2 askedLater.2 reached
      refine ⟨descendants, after, ?_, some, ?_⟩
      · rw [lineage, List.foldlM_cons]
        exact bred.bind run
      · intro descendant member
        exact (fromChildren descendant member).trans fromFounders

/--
Two founders of different lengths: one ends in a fragment, the other has two
weights.
-/
def couple : List Chromosome :=
  [⟨[2, 1, 1, 1, 1, 1, 1, 1, 1, 42]⟩,
    .ofProgram [.create (.weightedSum .nan), .readFrom .one,
      .create (.weightedSum .half)]]

theorem lineage_inherits_couple :
    (∀ founder ∈ couple, founder.isDecodable) ∧
      ∃ descendants after,
        Lab.Ends
            (lineage ⟨.randomCodes, .weights .hundredth⟩ couple [3, 2])
            (Generator.seeded (.ofSeed 7)) (.ok descendants) after ∧
          descendants ≠ [] ∧
          ∀ descendant ∈ descendants,
            Inherits (Mutation.weights .hundredth).Keeps couple descendant := by
  have decodable : ∀ founder ∈ couple, founder.isDecodable := by decide
  refine ⟨decodable, ?_⟩
  exact lineage_inherits (Generator.choosesWithin fun _ => True)
    ⟨.randomCodes, .weights .hundredth⟩ (by decide) (by decide) trivial
    decodable (by decide) (fun _ _ => trivial) ⟨_, rfl⟩

end Breeder

end NeuralGenome
