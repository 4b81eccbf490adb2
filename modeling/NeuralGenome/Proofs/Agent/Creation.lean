import NeuralGenome.Journal.Compilation
import NeuralGenome.Proofs.Genome.Decoding
import NeuralGenome.Proofs.Graph.Compilation

/-!
# Making agents

Any byte string may be offered as a chromosome.  What becomes of it is decided
by the tags of its whole frames alone: the first unknown tag, or else the
outputs for which no tag stands, or else an agent.  Operands decide nothing
here, and nothing is drawn.
-/

namespace NeuralGenome

open ListPosition (Within)

namespace Lab

variable {Source : Type}

/-- Decoding at a bench gives what decoding gives and adds to the journal. -/
theorem run_decode (chromosome : Chromosome) (bench : Bench Source) :
    ∃ journal,
      (decode chromosome).run bench =
        (chromosome.program, { bench with journal := journal }) := by
  rw [decode, noteIf]
  cases !chromosome.fragment.isEmpty with
  | false => exact ⟨bench.journal, rfl⟩
  | true => exact ⟨_, rfl⟩

/-- Compiling at a bench gives what compiling gives and adds to the journal. -/
theorem run_compile (graph : Graph) (bench : Bench Source) :
    ∃ journal,
      (compile graph).run bench =
        (graph.network, { bench with journal := journal }) := by
  rw [compile]
  cases found : graph.outputs with
  | error fault =>
      refine ⟨bench.journal, ?_⟩
      rw [Graph.network, found]
      rfl
  | ok outputs => exact ⟨_, rfl⟩

/--
At a bench an agent is made or refused as elsewhere; only the journal grows.
-/
theorem run_createAgent (chromosome : Chromosome) (bench : Bench Source) :
    ∃ journal,
      (createAgent chromosome).run bench =
        (Agent.create chromosome, { bench with journal := journal }) := by
  obtain ⟨noted, decoded⟩ := run_decode chromosome bench
  cases read : chromosome.program with
  | error fault =>
      rw [read] at decoded
      refine ⟨noted, ?_⟩
      rw [createAgent, Procedure.run_bind_of_error decoded, Agent.create, read]
      rfl
  | ok program =>
      rw [read] at decoded
      obtain ⟨journal, compiled⟩ :=
        run_compile program.compiled { bench with journal := noted }
      refine ⟨journal, ?_⟩
      have networks := program.network_eq
      rw [createAgent, Procedure.run_bind_of_ok decoded, program.graph_eq,
        Agent.create, read]
      cases made : program.compiled.network with
      | error fault =>
          rw [made] at compiled networks
          show (compile program.compiled >>= _).run _ = _
          rw [Procedure.run_bind_of_error compiled]
          simp only [bind, Except.bind, networks]
      | ok network =>
          rw [made] at compiled networks
          show (compile program.compiled >>= _).run _ = _
          rw [Procedure.run_bind_of_ok compiled]
          simp only [bind, Except.bind, networks]
          rfl

end Lab

namespace Chromosome

/-- The outputs for which no whole frame has a tag, the horizontal one first. -/
def missingOutputs (chromosome : Chromosome) : List Output :=
  Output.all.filter fun output => output.opcode.tag ∉ chromosome.tags

/-- How many whole frames have the tag of an opcode that creates a neuron. -/
def creations (chromosome : Chromosome) : Nat :=
  chromosome.tags.countP (· ≤ 5)

end Chromosome

namespace Agent

variable {chromosome : Chromosome} {program : Program}

theorem create_of_program_error {fault : Fault}
    (failed : chromosome.program = .error fault) :
    create chromosome = .error fault := by
  rw [create, failed]
  rfl

theorem create_of_network_error {fault : Fault}
    (decoded : chromosome.program = .ok program)
    (failed : program.compiled.network = .error fault) :
    create chromosome = .error fault := by
  rw [create, decoded]
  simp only [bind, Except.bind, program.network_eq, failed]

/-- A graph that compiles makes an agent that has not fired. -/
theorem create_of_network {network : Network}
    (decoded : chromosome.program = .ok program)
    (made : program.compiled.network = .ok network) :
    create chromosome = .ok ⟨chromosome, network, .initial network.size⟩ := by
  rw [create, decoded]
  simp only [bind, Except.bind, program.network_eq, made]
  rfl

/-- An output is designated exactly when its tag occurs. -/
theorem isSome_output_compiled
    (tags : program.opcodes.map Opcode.tag = chromosome.tags)
    (output : Output) : (program.compiled.output output).isSome ↔
      output.opcode.tag ∈ chromosome.tags := by
  rw [program.isSome_output_compiled, ← tags, List.mem_map]
  constructor
  · intro member
    exact ⟨output.opcode, member, rfl⟩
  · rintro ⟨opcode, member, same⟩
    rwa [← Opcode.tag_inj.mp same]

theorem missing_compiled
    (tags : program.opcodes.map Opcode.tag = chromosome.tags) :
    program.compiled.missing = chromosome.missingOutputs := by
  rw [Graph.missing, Chromosome.missingOutputs]
  apply List.filter_congr
  intro output _
  have designated := isSome_output_compiled tags output
  rw [← Option.not_isSome]
  by_cases occurs : output.opcode.tag ∈ chromosome.tags
  · rw [designated.mpr occurs, decide_eq_false (not_not_intro occurs)]
    rfl
  · rw [Bool.eq_false_iff.mpr (mt designated.mp occurs), decide_eq_true occurs]
    rfl

/-- A graph counts the inputs and the tags that create. -/
theorem count_compiled_eq
    (tags : program.opcodes.map Opcode.tag = chromosome.tags) :
    program.compiled.count = reservedNeurons + chromosome.creations := by
  rw [program.count_compiled, Chromosome.creations, ← tags, List.countP_map]
  congr 1
  apply List.countP_congr
  intro opcode _
  rw [Function.comp_apply, decide_eq_true_iff]
  exact opcode.creates_iff_tag_le

/-- Tags that are known and designate both outputs make an agent. -/
theorem exists_create (known : ∀ tag ∈ chromosome.tags, tag ≤ 9)
    (complete : chromosome.missingOutputs = []) :
    ∃ agent, create chromosome = .ok agent ∧
      agent.chromosome = chromosome ∧
      agent.network.size = reservedNeurons + chromosome.creations ∧
      (∀ neuron ∈ agent.network.neurons, ∀ link ∈ neuron.links,
        Within agent.network.size link) ∧
      ∀ output, Within agent.network.size (agent.network.output output) := by
  obtain ⟨program, decoded, tags⟩ := Chromosome.exists_program known
  have sound := program.sound_compiled
  have nothing : program.compiled.missing = [] :=
    (missing_compiled tags).trans complete
  obtain ⟨network, made, -⟩ := sound.exists_network nothing
  obtain ⟨size, links, outputs⟩ := sound.within_network made
  exact ⟨_, create_of_network decoded made, rfl,
    size.trans (count_compiled_eq tags), links, outputs⟩

/--
Making an agent has three outcomes.  Either some whole frame has an unknown tag
and the first of them is reported with its place, or all tags are known and the
outputs without a tag are reported, or an agent is made whose links and outputs
name neurons.  At a bench the outcome is the same and the source is not drawn
from.
-/
theorem create_trichotomy {Source : Type} (chromosome : Chromosome)
    (bench : Bench Source) :
    ((∃ before tag after, chromosome.tags = before ++ tag :: after ∧
          (∀ earlier ∈ before, earlier ≤ 9) ∧ 9 < tag ∧
          create chromosome = .error (.unknownTag tag.toNat
            (some (before.length * Frame.size)))) ∨
        ((∀ tag ∈ chromosome.tags, tag ≤ 9) ∧
          chromosome.missingOutputs ≠ [] ∧
          create chromosome =
            .error (.missingOutputs chromosome.missingOutputs)) ∨
        ((∀ tag ∈ chromosome.tags, tag ≤ 9) ∧
          chromosome.missingOutputs = [] ∧
          ∃ agent, create chromosome = .ok agent ∧
            agent.chromosome = chromosome ∧
            agent.network.size = reservedNeurons + chromosome.creations ∧
            (∀ neuron ∈ agent.network.neurons, ∀ link ∈ neuron.links,
              Within agent.network.size link) ∧
            ∀ output, Within agent.network.size
              (agent.network.output output))) ∧
      ((Lab.createAgent chromosome).run bench).1 = create chromosome ∧
      ((Lab.createAgent chromosome).run bench).2.source = bench.source := by
  refine ⟨?_, ?_, ?_⟩
  · rcases Chromosome.known_or_first_unknown chromosome.tags with
      known | ⟨before, tag, after, split, earlier, unknown⟩
    · by_cases complete : chromosome.missingOutputs = []
      · exact .inr (.inr ⟨known, complete, exists_create known complete⟩)
      · obtain ⟨program, decoded, tags⟩ := Chromosome.exists_program known
        have missing := missing_compiled tags
        have failed := Graph.network_of_missing (missing.symm ▸ complete)
        rw [missing] at failed
        exact .inr (.inl
          ⟨known, complete, create_of_network_error decoded failed⟩)
    · have failed := Chromosome.program_of_unknown split earlier unknown
      exact .inl ⟨before, tag, after, split, earlier, unknown,
        create_of_program_error failed⟩
  · obtain ⟨journal, done⟩ := Lab.run_createAgent chromosome bench
    rw [done]
  · obtain ⟨journal, done⟩ := Lab.run_createAgent chromosome bench
    rw [done]

end Agent

end NeuralGenome
