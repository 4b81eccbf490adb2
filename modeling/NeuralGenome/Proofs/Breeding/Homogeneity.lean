import NeuralGenome.Proofs.Agent.Creation
import NeuralGenome.Proofs.Breeding.Inheritance
import NeuralGenome.Proofs.Graph.Values

/-!
# Homogeneous populations

In a population whose programs have the same opcodes in the same order,
crossover exchanges genes of one opcode, and the mutation of weights touches
nothing else.  So whatever the genes at a place have in common is passed on: the
opcodes, and with them whether a genome compiles and to what kinds of neurons;
and the integers that the genes name, if those are common too, and with them the
whole network but for the values in it.

A genome *shows* a row of traits when these are the traits of the genes of its
program.  That it is passed on needs little of the trait: genes that need not be
kept whole must have it in common with all genes of their opcode.
-/

namespace NeuralGenome

namespace Chromosome

/-- The genes of a genome have given traits, in order. -/
def Shows {Trait : Type} (trait : Gene → Trait) (traits : List Trait)
    (chromosome : Chromosome) : Prop :=
  ∃ program, chromosome.program = .ok program ∧ program.map trait = traits

variable {Trait : Type} {trait : Gene → Trait} {traits : List Trait}

theorem Shows.isDecodable {chromosome : Chromosome}
    (shows : chromosome.Shows trait traits) : chromosome.isDecodable := by
  obtain ⟨program, decoded, -⟩ := shows
  exact isDecodable_iff_exists_program.mpr ⟨program, decoded⟩

theorem Shows.frameCount {chromosome : Chromosome}
    (shows : chromosome.Shows trait traits) :
    chromosome.frameCount = traits.length := by
  obtain ⟨program, decoded, rfl⟩ := shows
  rw [← length_of_program decoded, List.length_map]

/-- Counted from the end, traits stand where the genes do. -/
theorem Shows.getElem?_reverse {chromosome : Chromosome} {distance : Nat}
    {gene : Gene} (shows : chromosome.Shows trait traits)
    (bears : chromosome.Bears distance gene) :
    traits.reverse[distance]? = some (trait gene) := by
  obtain ⟨program, decoded, rfl⟩ := shows
  obtain ⟨_, same, found⟩ := bears
  rw [decoded] at same
  cases same
  rw [← List.map_reverse, List.getElem?_map, found]
  rfl

/-- What all ancestors show, a descendant shows. -/
theorem Inherits.shows {kept : Opcode → Prop} {ancestors : List Chromosome}
    {descendant : Chromosome} (inherits : Inherits kept ancestors descendant)
    (common : ∀ gene other : Gene, gene.opcode = other.opcode →
      ¬kept gene.opcode → trait gene = trait other)
    (shown : ∀ ancestor ∈ ancestors, ancestor.Shows trait traits) :
    descendant.Shows trait traits := by
  obtain ⟨program, decoded⟩ :=
    isDecodable_iff_exists_program.mp inherits.isDecodable
  refine ⟨program, decoded, List.reverse_injective (List.ext_getElem? ?_)⟩
  intro distance
  rw [← List.map_reverse, List.getElem?_map]
  cases found : program.reverse[distance]? with
  | none =>
      obtain ⟨ancestor, member, same⟩ := inherits.frameCount
      have lengths := (shown ancestor member).frameCount
      rw [← same, ← length_of_program decoded] at lengths
      rw [List.getElem?_eq_none_iff, List.length_reverse] at found
      exact (List.getElem?_eq_none
        (by rwa [List.length_reverse, ← lengths])).symm
  | some gene =>
      have bears : descendant.Bears distance gene := ⟨program, decoded, found⟩
      by_cases keeps : kept gene.opcode
      · obtain ⟨ancestor, member, before⟩ :=
          inherits.gene distance gene bears keeps
        exact ((shown ancestor member).getElem?_reverse before).symm
      · obtain ⟨ancestor, member, other, before, same⟩ :=
          inherits.opcode distance gene bears
        rw [(shown ancestor member).getElem?_reverse before, Option.map_some,
          common gene other same keeps]

/--
A genome has the opcodes of a population, and its outline if that is common too.
-/
structure Conforms (population : List Chromosome) (opcodes : List Opcode)
    (chromosome : Chromosome) : Prop where
  opcodes : chromosome.Shows Instruction.opcode opcodes
  outline : ∀ outline,
    (∀ member ∈ population, member.Shows Gene.outline outline) →
    chromosome.Shows Gene.outline outline

end Chromosome

open Chromosome (Shows Conforms)

/-! ## Agents of a homogeneous population -/

namespace Agent

variable {chromosome : Chromosome} {agent : Agent}

theorem exists_program_of_create (made : create chromosome = .ok agent) :
    ∃ program, chromosome.program = .ok program ∧
      program.compiled.network = .ok agent.network := by
  obtain ⟨program, decoded, compiled⟩ := bind_eq_ok.mp made
  obtain ⟨network, found, joined⟩ := bind_eq_ok.mp compiled
  refine ⟨program, decoded, ?_⟩
  rw [program.network_eq] at found
  cases joined
  exact found

/--
Opcodes that designate both outputs make an agent, and its kinds are those that
they create.
-/
theorem exists_create_of_shows {opcodes : List Opcode}
    (shows : chromosome.Shows Instruction.opcode opcodes)
    (complete : ∀ output : Output, output.opcode ∈ opcodes) :
    ∃ agent, create chromosome = .ok agent ∧
      agent.network.kinds =
        [.inputX, .inputY] ++ opcodes.filterMap Kind.ofOpcode? := by
  obtain ⟨program, decoded, rfl⟩ := shows
  have nothing : program.compiled.missing = [] := by
    rw [Graph.missing_eq_nil_iff]
    intro output
    exact (program.isSome_output_compiled output).mpr (complete output)
  obtain ⟨network, made, -⟩ := program.sound_compiled.exists_network nothing
  exact ⟨_, create_of_network decoded made, Program.kinds_of_network made⟩

/--
Agents of genomes with one outline have networks that differ at most in values.
-/
theorem network_alike_of_shows {left right : Chromosome}
    {outline : List (Instruction Int Unit)}
    (shows : left.Shows Gene.outline outline)
    (showsToo : right.Shows Gene.outline outline)
    {first second : Agent} (made : create left = .ok first)
    (madeToo : create right = .ok second) :
    first.network.Alike Kind.IsValued second.network := by
  obtain ⟨program, decoded, compiled⟩ := exists_program_of_create made
  obtain ⟨other, decodedToo, compiledToo⟩ := exists_program_of_create madeToo
  obtain ⟨_, same, outlined⟩ := shows
  obtain ⟨_, same', outlined'⟩ := showsToo
  rw [decoded] at same
  rw [decodedToo] at same'
  cases same
  cases same'
  have outlines :
      List.Forall₂ (fun gene other : Gene => gene.outline = other.outline)
        program other := by
    rw [← List.forall₂_map_right_iff (f := Gene.outline),
      ← List.forall₂_map_left_iff (f := Gene.outline), List.forall₂_eq_eq_eq,
      outlined, outlined']
  have alike :=
    Program.alike_compiled (outlines.imp fun _ _ => Gene.alike_of_outline)
  exact alike.network program.sound_compiled other.sound_compiled compiled
    compiledToo

end Agent

/-! ## Breeding a homogeneous population -/

namespace Breeder

variable {Source : Type} [DrawSource Source] {sizes : Nat → Prop}
  {states : Source → Prop} {source : Source} {breeder : Breeder}

/-- What a breeder begets from itself, no generation loses. -/
theorem Begets.lineage {fit : Chromosome → Prop}
    (begets : breeder.Begets states fit fit)
    (choosing : DrawSource.ChoosesWithin sizes states)
    {founders : List Chromosome}
    (populated : founders ≠ []) (asked : sizes founders.length)
    (suited : ∀ founder ∈ founders, fit founder)
    {counts : List Int} (positive : ∀ count ∈ counts, 1 ≤ count)
    (askedLater : ∀ count ∈ counts, sizes count.toNat) (start : states source) :
    ∃ descendants after,
      Lab.Ends (breeder.lineage founders counts) source
          (.ok descendants) after ∧
        descendants ≠ [] ∧ ∀ descendant ∈ descendants, fit descendant := by
  induction counts generalizing founders source with
  | nil => exact ⟨founders, source, .pure founders source, populated, suited⟩
  | cons count counts ih =>
      rw [List.forall_mem_cons] at positive askedLater
      obtain ⟨children, middle, bred, counted, areFit, reached⟩ :=
        begets.breedPopulation choosing populated asked suited
          (Int.le_trans Int.one_nonneg positive.1) start
      have born : children ≠ [] := by
        rintro rfl
        rw [List.length_nil] at counted
        omega
      have many : children.length = count.toNat := by omega
      obtain ⟨descendants, after, run, some, stayFit⟩ :=
        ih born (many.symm ▸ askedLater.1) areFit positive.2
          askedLater.2 reached
      refine ⟨descendants, after, ?_, some, stayFit⟩
      rw [Breeder.lineage, List.foldlM_cons]
      exact bred.bind run

theorem begets_conforms (choosing : DrawSource.ChoosesWithin sizes states)
    (gentle : breeder.mutation.kind ≠ .bits) (population : List Chromosome)
    (opcodes : List Opcode) :
    breeder.Begets states (Conforms population opcodes)
      (Conforms population opcodes) := by
  intro first second source conforms conforms' start
  obtain ⟨child, after, bred, fromParents, -, ended⟩ :=
    exists_ends_breed choosing conforms.opcodes.isDecodable
      conforms'.opcodes.isDecodable start
  refine ⟨child, after, bred, ⟨?_, ?_⟩, ended⟩
  · refine (fromParents gentle).shows (fun _ _ same _ => same) ?_
    simpa using ⟨conforms.opcodes, conforms'.opcodes⟩
  · intro outline common
    refine (fromParents gentle).shows ?_ ?_
    · -- only weights are not kept, and an outline leaves them out
      intro gene other same changes
      have weighted : gene.opcode = .createWeightedSum := by
        by_contra unweighted
        exact changes (.inr unweighted)
      obtain ⟨weight, rfl⟩ := Gene.exists_weight weighted
      obtain ⟨weight', rfl⟩ := Gene.exists_weight (same.symm.trans weighted)
      rfl
    · simpa using ⟨conforms.outline outline common,
        conforms'.outline outline common⟩

/--
A homogeneous population stays compilable for ever, if mutation leaves tags
alone.  When all founders have the same opcodes and these designate both
outputs, every descendant makes an agent with the kinds of neurons that the
founders' agents have.  When the founders moreover name the same integers, its
network is theirs but for the parameters of fixed neurons and weighted sums.
-/
theorem homogeneous_lineage_compiles
    (choosing : DrawSource.ChoosesWithin sizes states)
    (breeder : Breeder) (gentle : breeder.mutation.kind ≠ .bits)
    {founders : List Chromosome} (asked : sizes founders.length)
    {opcodes : List Opcode}
    (homogeneous : ∀ founder ∈ founders,
      founder.Shows Instruction.opcode opcodes)
    (complete : ∀ output : Output, output.opcode ∈ opcodes)
    {counts : List Int} (positive : ∀ count ∈ counts, 1 ≤ count)
    (askedLater : ∀ count ∈ counts, sizes count.toNat) (start : states source) :
    ∃ outcome after,
      Lab.Ends (breeder.lineage founders counts) source outcome after ∧
        (founders ≠ [] → ∃ descendants, outcome = .ok descendants ∧
          descendants ≠ []) ∧
        ∀ descendants, outcome = .ok descendants → ∀ descendant ∈ descendants,
          ∃ agent, Agent.create descendant = .ok agent ∧
            ∀ founder ∈ founders, ∃ ancestor,
              Agent.create founder = .ok ancestor ∧
              agent.network.kinds = ancestor.network.kinds ∧
              ∀ outline, (∀ founder ∈ founders,
                founder.Shows Gene.outline outline) →
                agent.network.Alike Kind.IsValued ancestor.network := by
  by_cases populated : founders = []
  · subst populated
    cases counts with
    | nil =>
        refine ⟨.ok [], source, .pure [] source,
          fun some => absurd rfl some, ?_⟩
        intro descendants nobody descendant member
        cases nobody
        cases member
    | cons count counts =>
        refine ⟨.error .noParents, source, ?_,
          fun some => absurd rfl some, nofun⟩
        rw [lineage, List.foldlM_cons]
        exact (breeder.ends_breedPopulation_nil count source).bind_error
  · have conforming : ∀ founder ∈ founders, Conforms founders opcodes founder :=
      fun founder member =>
        ⟨homogeneous founder member, fun _ common => common founder member⟩
    obtain ⟨descendants, after, run, some, conform⟩ :=
      (begets_conforms choosing gentle founders opcodes).lineage choosing
        populated asked conforming positive askedLater start
    refine ⟨.ok descendants, after, run, fun _ => ⟨descendants, rfl, some⟩, ?_⟩
    rintro _ ⟨⟩ descendant member
    obtain ⟨agent, made, kinds⟩ :=
      Agent.exists_create_of_shows (conform descendant member).opcodes complete
    refine ⟨agent, made, fun founder founds => ?_⟩
    obtain ⟨ancestor, madeToo, kindsToo⟩ :=
      Agent.exists_create_of_shows (homogeneous founder founds) complete
    refine ⟨ancestor, madeToo, kinds.trans kindsToo.symm,
      fun outline common => ?_⟩
    exact Agent.network_alike_of_shows
      ((conform descendant member).outline outline common)
      (common founder founds) made madeToo

/--
A program with two values: a weighted sum of one input, which gives the
horizontal answer, and a fixed neuron, which gives the vertical one.
-/
def sibling (weight signal : Binary64) : Program :=
  [.create (.weightedSum weight), .readFrom .one, .assign .dx .two,
    .create (.fixed signal), .assign .dy .minusOne]

/-- Two genomes of such programs, of which one ends in a fragment. -/
def siblings : List Chromosome :=
  [.ofProgram (sibling .nan .half), ⟨(sibling .minusOne .one).encode ++ [7, 7]⟩]

theorem shows_siblings {Trait : Type} (trait : Gene → Trait)
    (common : ∀ weight signal,
      (sibling weight signal).map trait = (sibling .zero .zero).map trait) :
    ∀ founder ∈ siblings,
      founder.Shows trait ((sibling .zero .zero).map trait) := by
  refine List.forall_mem_cons.mpr ⟨?_, List.forall_mem_singleton.mpr ?_⟩
  · exact ⟨_, Chromosome.program_ofProgram _, common _ _⟩
  · exact ⟨_, Program.decode_encode_append _ (by decide), common _ _⟩

theorem homogeneous_lineage_compiles_siblings :
    (∀ founder ∈ siblings, founder.Shows Instruction.opcode
        [.createWeightedSum, .readFrom, .setDx, .createFixed, .setDy]) ∧
      ∃ descendants after,
        Lab.Ends (lineage ⟨.randomCodes, .weights .hundredth⟩ siblings [3, 2])
            (Generator.seeded (.ofSeed 7)) (.ok descendants) after ∧
          descendants ≠ [] ∧
          ∀ descendant ∈ descendants, ∃ agent,
            Agent.create descendant = .ok agent ∧
            ∀ founder ∈ siblings, ∃ ancestor,
              Agent.create founder = .ok ancestor ∧
              agent.network.Alike Kind.IsValued ancestor.network := by
  have opcodes := shows_siblings Instruction.opcode fun _ _ => rfl
  have outline := shows_siblings Gene.outline fun _ _ => rfl
  refine ⟨opcodes, ?_⟩
  have complete (output : Output) :
      output.opcode ∈ (sibling .zero .zero).map Instruction.opcode := by
    cases output <;> decide
  obtain ⟨outcome, after, run, born, compile⟩ :=
    homogeneous_lineage_compiles (Generator.choosesWithin fun _ => True)
      ⟨.randomCodes, .weights .hundredth⟩ (by decide) trivial opcodes complete
      (show ∀ count ∈ [3, 2], 1 ≤ count by decide) (fun _ _ => trivial) ⟨_, rfl⟩
  obtain ⟨descendants, rfl, some⟩ := born (by decide)
  refine ⟨descendants, after, run, some, fun descendant member => ?_⟩
  obtain ⟨agent, made, alike⟩ := compile descendants rfl descendant member
  refine ⟨agent, made, fun founder founds => ?_⟩
  obtain ⟨ancestor, madeToo, -, networks⟩ := alike founder founds
  exact ⟨ancestor, madeToo, networks _ outline⟩

end Breeder

end NeuralGenome
