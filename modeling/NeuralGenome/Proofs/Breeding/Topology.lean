import Mathlib.Logic.Relation
import NeuralGenome.Proofs.Agent.Alone
import NeuralGenome.Proofs.Agent.Isolation
import NeuralGenome.Proofs.Breeding.Homogeneity

/-!
# What mutations of weights leave of a network

Weights become parameters of weighted sums, and nothing else in a network comes
from them.  So however often the weights of a genome are mutated, the mutant
compiles when the genome does, to a network of the same shape.

Weights reach the moves of an agent only through weighted sums that an output
is, or depends on.  Where there is none, the neurons that the outputs depend on
are a part that both networks share, and the two agents are twins over it.
-/

namespace NeuralGenome

/-! ## Networks that share what their answers depend on -/

/-- Alike neurons of a kind that is not loose are equal. -/
theorem LinkedNeuron.Alike.eq_of_firm {loose : Kind → Prop}
    {left right : LinkedNeuron}
    (alike : left.Alike loose right) (firm : ¬loose left.definition.kind) :
    left = right := by
  rcases left with ⟨⟨kind, parameter⟩, links⟩
  rcases right with ⟨⟨kind', parameter'⟩, links'⟩
  obtain rfl : kind = kind' := alike.definition.kind
  obtain rfl : parameter = parameter' := alike.definition.parameter firm
  obtain rfl : links = links' := alike.links
  rfl

namespace Network

/--
An output is the neuron, or depends on it along the links of neurons that look
at them.
-/
def Answering (network : Network) (neuron : Nat) : Prop :=
  ∃ (axis : Output) (place : Nat), network.output axis = place ∧
    Relation.ReflTransGen network.Reads place neuron

/-- No output is a neuron of such a kind, or depends on one. -/
def AnswersWithout (kinds : Kind → Prop) (network : Network) : Prop :=
  ∀ (neuron : Nat) (linked : LinkedNeuron), network.Answering neuron →
    network.neurons[neuron]? = some linked → ¬kinds linked.definition.kind

/-- Where outputs and links lead to is all that answers. -/
theorem AnswersWithout.of_closed {kinds : Kind → Prop} {network : Network}
    (part : Set Nat)
    (outputs : ∀ (axis : Output) (place : Nat), network.output axis = place →
      place ∈ part)
    (closed : ∀ neuron ∈ part, ∀ link, network.Reads neuron link → link ∈ part)
    (without : ∀ neuron ∈ part, ∀ linked,
      network.neurons[neuron]? = some linked →
      ¬kinds linked.definition.kind) : network.AnswersWithout kinds := by
  rintro neuron linked ⟨axis, place, output, depends⟩
  refine without neuron ?_ linked
  induction depends with
  | refl => exact outputs axis place output
  | tail _ reads ih => exact closed _ ih _ reads

namespace Alike

variable {loose : Kind → Prop} {left right : Network}

theorem size_eq (alike : left.Alike loose right) : left.size = right.size :=
  alike.neurons.length_eq

theorem map_isRandom (alike : left.Alike loose right) :
    left.neurons.map LinkedNeuron.isRandom =
      right.neurons.map LinkedNeuron.isRandom := by
  rw [← List.forall₂_eq_eq_eq, List.forall₂_map_left_iff,
    List.forall₂_map_right_iff]
  refine alike.neurons.imp fun neuron other same => ?_
  rw [LinkedNeuron.isRandom, LinkedNeuron.isRandom, same.definition.kind]

/-- Alike networks are equal at a neuron whose kind is not loose. -/
theorem getElem?_eq (alike : left.Alike loose right) {place : Nat}
    (firm : ∀ linked, left.neurons[place]? = some linked →
      ¬loose linked.definition.kind) :
    left.neurons[place]? = right.neurons[place]? := by
  have length := alike.neurons.length_eq
  rcases Nat.lt_or_ge place left.neurons.length with inside | outside
  · have insideToo : place < right.neurons.length := length ▸ inside
    have same := alike.neurons.get inside insideToo
    rw [List.getElem?_eq_getElem inside, List.getElem?_eq_getElem insideToo]
    exact congrArg some
      (same.eq_of_firm (firm _ (List.getElem?_eq_getElem inside)))
  · rw [List.getElem?_eq_none outside, List.getElem?_eq_none (length ▸ outside)]

/-- Alike networks share what answers, unless it has neurons of loose kinds. -/
theorem share (alike : left.Alike loose right)
    (firm : left.AnswersWithout loose) :
    left.Share right {neuron | left.Answering neuron} where
  randoms := alike.map_isRandom
  alike := fun neuron answers =>
    alike.getElem?_eq fun linked found => firm neuron linked answers found
  closed := by
    rintro neuron ⟨axis, place, output, depends⟩ link reads
    exact ⟨axis, place, output, depends.tail reads⟩

end Alike

end Network

namespace Agent

variable {chromosome other : Chromosome} {agent agent' : Agent}

/-- A new agent remembers nothing. -/
theorem memory_of_create (made : create chromosome = .ok agent) :
    agent.memory = .initial agent.network.size := by
  obtain ⟨program, -, rest⟩ := bind_eq_ok.mp made
  obtain ⟨network, -, joined⟩ := bind_eq_ok.mp rest
  cases joined
  rfl

/--
New agents whose networks are alike are twins over what answers, if that has no
neurons of loose kinds.
-/
theorem twins_of_alike {loose : Kind → Prop}
    (made : create chromosome = .ok agent) (madeToo : create other = .ok agent')
    (alike : agent.network.Alike loose agent'.network)
    (firm : agent.network.AnswersWithout loose) :
    Twins {neuron | agent.network.Answering neuron} agent agent' where
  share := alike.share firm
  grounded := ⟨(Compiled.of_create made).within.1,
    (Compiled.of_create madeToo).within.1⟩
  sized := ⟨(Compiled.of_create made).sized, (Compiled.of_create madeToo).sized⟩
  agree := by
    rw [memory_of_create made, memory_of_create madeToo, alike.size_eq]
    exact fun _ _ => rfl
  outputs := alike.output
  placed := by
    intro axis
    obtain ⟨place, output⟩ :=
      Int.eq_ofNat_of_zero_le ((Compiled.of_create made).within.2 axis).1
    exact ⟨place, ⟨axis, place, output, .refl⟩, output⟩

/-- Twins that draw from the same source make the same moves for ever. -/
theorem Twins.moves_eq {Source : Type} [DrawSource Source] {part : Set Nat}
    (twins : Twins part agent agent') (source : Source) :
    (∀ positions, ∃ moves,
      ((decisions positions).run (agent, source)).1 = .ok moves ∧
        ((decisions positions).run (agent', source)).1 = .ok moves) ∧
      ∀ position steps,
        ((walk position steps).run (agent, source)).1 =
          ((walk position steps).run (agent', source)).1 := by
  have related : SharedTwins part (agent, source) (agent', source) :=
    ⟨twins, rfl⟩
  constructor
  · intro positions
    obtain ⟨moves, after, decided⟩ :=
      Procedure.exists_run_attemptAll (positions.map Agent.decide)
        (agent, source)
    have same := (respects_decisions positions _ _ related).1
    refine ⟨moves, ?_, ?_⟩
    · rw [decisions, decided]
    · rw [← same, decisions, decided]
  · intro position steps
    exact (respects_walk position steps _ _ related).1

end Agent

namespace Mutation

variable {Source : Type} [DrawSource Source]

/-- Mutate weights again and again, each time with a probability of its own. -/
def mutateWeightsAll (probabilities : List Probability)
    (chromosome : Chromosome) : Lab Source Chromosome :=
  probabilities.foldlM
    (fun mutant probability => mutateWeights probability mutant) chromosome

theorem SparesGene.trans {gene mutant later : Gene}
    (first : SparesGene gene mutant)
    (second : SparesGene mutant later) : SparesGene gene later where
  opcode := second.opcode.trans first.opcode
  unweighted := by
    intro unweighted
    rw [← first.unweighted unweighted]
    exact second.unweighted (first.opcode ▸ unweighted)

theorem spares_trans {program genes others : Program}
    (first : List.Forall₂ SparesGene program genes)
    (second : List.Forall₂ SparesGene genes others) :
    List.Forall₂ SparesGene program others := by
  induction first generalizing others with
  | nil => exact second
  | cons spared _ ih =>
      cases second with
      | cons sparedToo rest => exact .cons (spared.trans sparedToo) (ih rest)

/--
A gene that is spared asks for the same neuron or link, but for the weight.
-/
theorem SparesGene.alike {gene mutant : Gene}
    (spared : SparesGene gene mutant) :
    gene.call.Alike (· = .weightedSum) mutant.call := by
  by_cases weighted : gene.opcode = .createWeightedSum
  · obtain ⟨weight, rfl⟩ := Gene.exists_weight weighted
    obtain ⟨weight', rfl⟩ := Gene.exists_weight (spared.opcode.trans weighted)
    exact .create ⟨rfl, fun firm => absurd rfl firm⟩
  · rw [spared.unweighted weighted]
    exact .same _

/-- A source of which only draws are asked chooses nothing wrong. -/
theorem choosesWithin_none :
    DrawSource.ChoosesWithin (fun _ => False) fun _ : Source => True where
  next _ _ := trivial
  nextPair _ _ _ asked _ := asked.elim

/--
However often weights are mutated, the mutant has the genes of the genome, but
for weights.
-/
theorem exists_ends_mutateWeightsAll (probabilities : List Probability)
    {chromosome : Chromosome} {program : Program}
    (decoded : chromosome.program = .ok program) (source : Source) :
    ∃ mutant genes after,
      Lab.Ends (mutateWeightsAll probabilities chromosome) source
          (.ok mutant) after ∧
        mutant.program = .ok genes ∧ List.Forall₂ SparesGene program genes := by
  induction probabilities generalizing chromosome program source with
  | nil =>
      exact ⟨chromosome, program, source, .pure chromosome source, decoded,
        List.forall₂_same.mpr fun gene _ => .refl gene⟩
  | cons probability rest ih =>
      have choosing :
          DrawSource.ChoosesWithin (fun _ => False) fun _ : Source => True :=
        choosesWithin_none
      have started : (fun _ : Source => True) source := trivial
      obtain ⟨mutant, genes, middle, mutated, -, decodedToo, spared, -⟩ :=
        exists_ends_mutateWeights choosing probability decoded started
      obtain ⟨last, others, after, later, decodedLast, sparedToo⟩ :=
        ih decodedToo middle
      refine ⟨last, others, after, ?_, decodedLast, ?_⟩
      · rw [mutateWeightsAll, List.foldlM_cons]
        exact mutated.bind later
      · exact spares_trans spared sparedToo

/--
Mutating weights never changes the shape of what a genome compiles to.  Take a
genome that can be decoded, mutate its weights as often as you like, with
whatever probabilities and draws.  Then the genome and the mutant lack the same
outputs and neither compiles, or both compile, to networks with as many neurons,
the same kinds, links and outputs, and the same parameters but for those of
weighted sums.  If then no output is a weighted sum or depends on one, the two
agents make the same moves for ever, from any source of draws.
-/
theorem weights_leave_topology (probabilities : List Probability)
    {chromosome : Chromosome}
    (decodable : chromosome.isDecodable) (source : Source) :
    ∃ mutant after,
      Lab.Ends (mutateWeightsAll probabilities chromosome) source
          (.ok mutant) after ∧
        ((∃ missing, Agent.create chromosome =
          .error (.missingOutputs missing) ∧
            Agent.create mutant = .error (.missingOutputs missing)) ∨
          ∃ agent agent', Agent.create chromosome = .ok agent ∧
            Agent.create mutant = .ok agent' ∧
            agent.network.size = agent'.network.size ∧
            agent.network.Alike (· = .weightedSum) agent'.network ∧
            (agent.network.AnswersWithout (· = .weightedSum) →
              ∀ {Draws : Type} [DrawSource Draws] (draws : Draws),
                (∀ positions, ∃ moves,
                  ((Agent.decisions positions).run (agent, draws)).1 =
                      .ok moves ∧
                    ((Agent.decisions positions).run (agent', draws)).1 =
                      .ok moves) ∧
                ∀ position steps,
                  ((Agent.walk position steps).run (agent, draws)).1 =
                    ((Agent.walk position steps).run (agent', draws)).1)) := by
  obtain ⟨program, decoded⟩ :=
    Chromosome.isDecodable_iff_exists_program.mp decodable
  obtain ⟨mutant, genes, after, mutated, decodedToo, spared⟩ :=
    exists_ends_mutateWeightsAll probabilities decoded source
  refine ⟨mutant, after, mutated, ?_⟩
  have graphs : program.compiled.Alike (· = .weightedSum) genes.compiled :=
    Program.alike_compiled (spared.imp fun _ _ => SparesGene.alike)
  have lacks : genes.compiled.missing = program.compiled.missing := by
    rw [Graph.missing, Graph.missing]
    exact List.filter_congr fun axis _ => by rw [graphs.output_eq axis]
  by_cases complete : program.compiled.missing = []
  · obtain ⟨network, made, -⟩ := program.sound_compiled.exists_network complete
    obtain ⟨network', made', -⟩ :=
      genes.sound_compiled.exists_network (lacks.trans complete)
    have alike :=
      graphs.network program.sound_compiled genes.sound_compiled made made'
    have created := Agent.create_of_network decoded made
    have createdToo := Agent.create_of_network decodedToo made'
    exact .inr ⟨_, _, created, createdToo, alike.size_eq, alike,
      fun firm _ _ draws =>
      (Agent.twins_of_alike created createdToo alike firm).moves_eq draws⟩
  · have failed := Graph.network_of_missing complete
    have failedToo := Graph.network_of_missing (lacks.symm ▸ complete)
    rw [lacks] at failedToo
    exact .inl ⟨_, Agent.create_of_network_error decoded failed,
      Agent.create_of_network_error decodedToo failedToo⟩

/--
A weighted sum that nobody reads, beside a sum of an input and its own last
signal and a draw, which are the outputs; a fragment stands at the end.
-/
def bystander : Chromosome :=
  ⟨Program.encode [.create (.weightedSum .nan), .readFrom .zero, .create .sum,
    .readFrom .one, .readFrom .minusOne, .assign .dx .minusOne, .create .random,
    .assign .dy .minusOne] ++ [3, 1]⟩

/-- The network of that genome. -/
def bystanderNetwork : Network where
  neurons :=
    [⟨⟨.inputX, .zero⟩, []⟩, ⟨⟨.inputY, .zero⟩, []⟩,
      ⟨⟨.weightedSum, .nan⟩, [0]⟩, ⟨⟨.sum, .zero⟩, [1, 3]⟩,
      ⟨⟨.random, .zero⟩, []⟩]
  dx := 3
  dy := 4

theorem answersWithout_bystanderNetwork :
    bystanderNetwork.AnswersWithout (· = .weightedSum) := by
  refine .of_closed {1, 3, 4} ?_ ?_ ?_
  · intro axis place output
    cases axis with
    | dx => cases Int.ofNat_inj.mp output; exact .inr (.inl rfl)
    | dy => cases Int.ofNat_inj.mp output; exact .inr (.inr rfl)
  · rintro _ (rfl | rfl | rfl) link ⟨linked, found, looks, member⟩ <;>
      cases found
    · cases looks
    · rcases List.mem_cons.mp member with first | second
      · exact .inl (Int.ofNat_inj.mp first)
      · exact .inr (.inl (Int.ofNat_inj.mp (List.mem_singleton.mp second)))
    · cases looks
  · rintro _ (rfl | rfl | rfl) linked found <;> cases found <;> decide

theorem weights_leave_topology_bystander :
    bystander.isDecodable ∧
      ∃ mutant after agent agent',
        Lab.Ends (mutateWeightsAll [.hundredth, .hundredth] bystander)
          (Script.ofList [.half, .zero]) (.ok mutant) after ∧
        Agent.create bystander = .ok agent ∧ Agent.create mutant = .ok agent' ∧
        agent.network.Alike (· = .weightedSum) agent'.network ∧
        agent.network.AnswersWithout (· = .weightedSum) ∧
        ∃ moves,
          ((Agent.decisions [⟨3, -1⟩, ⟨0, 2⟩, ⟨5, 5⟩]).run
            (agent, Script.ofList [.half, .zero])).1 = .ok moves ∧
          ((Agent.decisions [⟨3, -1⟩, ⟨0, 2⟩, ⟨5, 5⟩]).run
            (agent', Script.ofList [.half, .zero])).1 = .ok moves := by
  have decodable : bystander.isDecodable := by decide +kernel
  have made : Agent.create bystander =
      .ok ⟨bystander, bystanderNetwork, .initial 5⟩ := by
    decide +kernel
  obtain ⟨mutant, after, mutated, outcome⟩ :=
    weights_leave_topology [.hundredth, .hundredth] decodable
      (Script.ofList [.half, .zero])
  rcases outcome with ⟨missing, failed, -⟩ | ⟨agent, agent', created, madeToo,
    -, alike, same⟩
  · rw [made] at failed
    cases failed
  · rw [made] at created
    cases created
    have firm := answersWithout_bystanderNetwork
    exact ⟨decodable, mutant, after, _, agent', mutated, made, madeToo,
      alike, firm, (same firm (Script.ofList [.half, .zero])).1 _⟩

end Mutation

end NeuralGenome
