import Mathlib.Data.List.Forall2
import NeuralGenome.Breeding.Mutation
import NeuralGenome.Proofs.Genome.Codec
import NeuralGenome.Proofs.Journal.Outcome
import NeuralGenome.Proofs.Random.Choice

/-!
# What mutations leave alone

Flipping bits of weights works on the frames of a genome, but it can be told
gene by gene: the mutant has the genes of the genome, except that weighted sums
may have other weights.  The fragment at the end stays, so that both are equally
long.  Flipping any bits may undo every gene and keeps the length alone.
-/

namespace NeuralGenome

namespace Mutation

/-- What flipping weights may make of a frame. -/
structure SparesFrame (frame mutant : Frame) : Prop where
  tag : mutant.tag = frame.tag
  unweighted : isWeighted frame = false → mutant = frame

/-- What flipping weights may make of a gene: at most another weight. -/
structure SparesGene (gene mutant : Gene) : Prop where
  opcode : mutant.opcode = gene.opcode
  unweighted : gene.opcode ≠ .createWeightedSum → mutant = gene

theorem SparesGene.refl (gene : Gene) : SparesGene gene gene :=
  ⟨rfl, fun _ => rfl⟩

/-- A frame that is spared still carries its gene, but for the weight. -/
theorem SparesFrame.exists_ofFrame? {frame mutant : Frame} {gene : Gene}
    (spared : SparesFrame frame mutant)
    (carried : Gene.ofFrame? frame = some gene) :
    ∃ other, Gene.ofFrame? mutant = some other ∧ SparesGene gene other := by
  obtain ⟨opcode, named, rfl⟩ := Option.map_eq_some_iff.mp carried
  refine ⟨.ofOpcode opcode mutant.operand, ?_, ?_, ?_⟩
  · rw [Gene.ofFrame?, spared.tag, named]
    rfl
  · rw [Instruction.opcode_ofOpcode, Instruction.opcode_ofOpcode]
  · intro unweighted
    rw [Instruction.opcode_ofOpcode] at unweighted
    have plain : isWeighted frame = false := by
      rw [isWeighted, named]
      simpa using unweighted
    rw [spared.unweighted plain]

theorem exists_map_ofFrame? {frames mutants : List Frame} {program : Program}
    (spared : List.Forall₂ SparesFrame frames mutants)
    (carried : frames.map Gene.ofFrame? = program.map some) :
    ∃ genes : Program, mutants.map Gene.ofFrame? = genes.map some ∧
      List.Forall₂ SparesGene program genes := by
  induction spared generalizing program with
  | nil =>
      cases List.map_eq_nil_iff.mp carried.symm
      exact ⟨[], rfl, .nil⟩
  | cons first _ ih =>
      obtain ⟨gene, others, rfl, same, rest⟩ :=
        List.map_eq_cons_iff.mp carried.symm
      obtain ⟨mutant, carriedToo, sparedGene⟩ := first.exists_ofFrame? same.symm
      obtain ⟨genes, carriedRest, sparedRest⟩ := ih rest.symm
      refine ⟨mutant :: genes, ?_, .cons sparedGene sparedRest⟩
      rw [List.map_cons, List.map_cons, carriedToo, carriedRest]

/-! ## Mutation at a bench -/

variable {Source : Type} [DrawSource Source] {sizes : Nat → Prop}
  {states : Source → Prop} {source : Source}

theorem ends_flipBytes (probability : Probability) (bytes : List UInt8)
    (source : Source) :
    Lab.Ends (flipBytes probability bytes) source
      (.ok (Bits.flip
        (mask probability (DrawSource.take (8 * bytes.length) source).1) bytes))
      (DrawSource.take (8 * bytes.length) source).2 :=
  (Lab.Ends.draw _ source).bind ((Lab.Ends.noteIf _ _ _).bind (.pure _ _))

/-- Flipping any bits keeps the length. -/
theorem exists_ends_mutateBits
    (choosing : DrawSource.ChoosesWithin sizes states)
    (probability : Probability) (chromosome : Chromosome)
    (start : states source) :
    ∃ mutant after,
      Lab.Ends (mutateBits probability chromosome) source (.ok mutant) after ∧
        mutant.length = chromosome.length ∧ states after := by
  unfold mutateBits
  split
  · exact ⟨chromosome, source, .pure chromosome source, rfl, start⟩
  · refine ⟨_, _, (ends_flipBytes probability _ source).bind (.pure _ _), ?_,
      choosing.take _ start⟩
    apply Bits.length_flip
    rw [mask, List.length_map, DrawSource.length_take]

theorem exists_ends_mutateFrame
    (choosing : DrawSource.ChoosesWithin sizes states)
    (probability : Probability) (frame : Frame) (start : states source) :
    ∃ mutant after,
      Lab.Ends (mutateFrame probability frame) source (.ok mutant) after ∧
        SparesFrame frame mutant ∧ states after := by
  unfold mutateFrame
  cases weighted : isWeighted frame with
  | true =>
      refine ⟨_, _, (ends_flipBytes probability _ source).bind (.pure _ _),
        ⟨rfl, ?_⟩, choosing.take _ start⟩
      intro plain
      rw [weighted] at plain
      cases plain
  | false =>
      exact ⟨frame, source, .pure frame source, ⟨rfl, fun _ => rfl⟩, start⟩

theorem exists_ends_mutateFrames
    (choosing : DrawSource.ChoosesWithin sizes states)
    (probability : Probability) (frames : List Frame) (start : states source) :
    ∃ mutants after,
      Lab.Ends (mutateFrames probability frames) source (.ok mutants) after ∧
        List.Forall₂ SparesFrame frames mutants ∧ states after := by
  induction frames generalizing source with
  | nil => exact ⟨[], source, .pure [] source, .nil, start⟩
  | cons frame rest ih =>
      obtain ⟨mutant, middle, first, spared, reached⟩ :=
        exists_ends_mutateFrame choosing probability frame start
      obtain ⟨mutants, after, later, sparedRest, ended⟩ := ih reached
      exact ⟨mutant :: mutants, after, first.bind (later.bind (.pure _ _)),
        .cons spared sparedRest, ended⟩

/--
The mutant of a genome that can be decoded is as long and has its genes, but for
weights.
-/
theorem exists_ends_mutateWeights
    (choosing : DrawSource.ChoosesWithin sizes states)
    (probability : Probability) {chromosome : Chromosome} {program : Program}
    (decoded : chromosome.program = .ok program) (start : states source) :
    ∃ mutant genes after,
      Lab.Ends (mutateWeights probability chromosome) source (.ok mutant)
          after ∧
        mutant.length = chromosome.length ∧ mutant.program = .ok genes ∧
        List.Forall₂ SparesGene program genes ∧ states after := by
  have read := Lab.Ends.decode chromosome source
  rw [decoded] at read
  unfold mutateWeights
  by_cases plain : (Frame.list chromosome.bytes).countP isWeighted = 0
  · refine ⟨chromosome, program, source, read.bind ?_, rfl, decoded,
      List.forall₂_same.mpr fun gene _ => .refl gene, start⟩
    rw [if_pos plain]
    exact .pure chromosome source
  · obtain ⟨mutants, after, mutated, spared, ended⟩ :=
      exists_ends_mutateFrames choosing probability
        (Frame.list chromosome.bytes) start
    obtain ⟨genes, carried, sparedGenes⟩ :=
      exists_map_ofFrame? spared (Program.decode_eq_ok_iff.mp decoded)
    have short : chromosome.fragment.length < Frame.size :=
      Frame.length_fragment_lt chromosome.bytes
    refine ⟨⟨mutants.flatMap Frame.bytes ++ chromosome.fragment⟩, genes, after,
      read.bind ?_, ?_, ?_, sparedGenes, ended⟩
    · rw [if_neg plain]
      exact mutated.bind ((Lab.Ends.note _ after).bind (.pure _ after))
    · have row :=
        congrArg List.length (Frame.flatMap_bytes_list chromosome.bytes)
      rw [List.length_append, Frame.length_flatMap_bytes,
        spared.length_eq] at row
      rw [Chromosome.length, List.length_append, Frame.length_flatMap_bytes]
      exact row
    · rw [Chromosome.program, Program.decode_eq_ok_iff,
        Frame.list_flatMap_bytes_fragment mutants short]
      exact carried

end Mutation

end NeuralGenome
