import NeuralGenome.Demonstration
import NeuralGenome.Proofs.Breeding.Homogeneity

/-!
# Evolution never gets stuck

A mutation of any bits can leave a child that no longer compiles or cannot even
be decoded, and such a child would make the next crossover fail.  It never gets
so far: an evolution keeps exactly the children that compile, and where none is
left it ends with their parents.  The invariant of its loop is that the current
population is occupied, that all its members compile, and that they are as long
as the seeds, since neither crossover nor mutation changes the length of genomes
that are equally long and end with their last gene.

`Evolution.history` records the populations that the loop passes through, and
`Evolution.exists_ends_history` carries a property of children along them.
Where mutation leaves tags alone and the seeds have the same opcodes, every
child compiles, and no generation is smaller than asked for.
-/

namespace NeuralGenome

/-- Whether a genome makes an agent. -/
def Chromosome.compiles (chromosome : Chromosome) : Bool :=
  (Agent.create chromosome).isOk

theorem Chromosome.compiles_iff {chromosome : Chromosome} :
    chromosome.compiles ↔ ∃ agent, Agent.create chromosome = .ok agent := by
  rw [compiles]
  cases Agent.create chromosome with
  | ok agent => exact ⟨fun _ => ⟨agent, rfl⟩, fun _ => rfl⟩
  | error fault => exact ⟨nofun, nofun⟩

theorem Chromosome.isDecodable_of_compiles {chromosome : Chromosome}
    (compiles : chromosome.compiles) : chromosome.isDecodable := by
  obtain ⟨agent, made⟩ := compiles_iff.mp compiles
  obtain ⟨program, decoded, -⟩ := Agent.exists_program_of_create made
  exact isDecodable_iff_exists_program.mpr ⟨program, decoded⟩

/-- A genome that makes no agent is at fault itself. -/
theorem Agent.isGenetic_of_create {chromosome : Chromosome} {fault : Fault}
    (failed : create chromosome = .error fault) : fault.isGenetic := by
  cases decoded : chromosome.program with
  | error unreadable =>
      obtain ⟨tag, offset, rfl⟩ := Chromosome.exists_unknownTag decoded
      rw [create_of_program_error decoded] at failed
      cases failed
      rfl
  | ok program =>
      by_cases complete : program.compiled.missing = []
      · obtain ⟨network, made, -⟩ :=
          program.sound_compiled.exists_network complete
        rw [create_of_network decoded made] at failed
        cases failed
      · rw [create_of_network_error decoded (Graph.network_of_missing complete)]
          at failed
        cases failed
        rfl

theorem Lab.Ends.createAgent {Source : Type} (chromosome : Chromosome)
    (source : Source) :
    Lab.Ends (Lab.createAgent chromosome) source (Agent.create chromosome)
      source := by
  intro journal
  obtain ⟨noted, done⟩ := Lab.run_createAgent chromosome ⟨source, journal⟩
  exact ⟨noted, done⟩

namespace Evolution

variable {Source : Type}

/--
Exactly the children that compile survive, in order, and no child makes the
selection fail.
-/
theorem ends_survivors (children : List Chromosome) (source : Source) :
    Lab.Ends (survivors children) source
      (.ok (children.filter Chromosome.compiles)) source := by
  induction children with
  | nil => exact .pure [] source
  | cons child rest ih =>
      rw [survivors, List.filter_cons, Chromosome.compiles]
      refine (Lab.Ends.createAgent child source).attempt.bind ?_
      cases made : Agent.create child with
      | ok agent => exact ih.bind (.pure _ source)
      | error fault =>
          dsimp only
          rw [if_pos (Agent.isGenetic_of_create made)]
          exact (Lab.Ends.note _ source).bind ih

variable [DrawSource Source] {sizes : Nat → Prop} {states : Source → Prop}
  {source : Source}

/--
The populations at the start of every generation, and the result, in order.
-/
def history (breeder : Breeder) (population : Int) (parents : List Chromosome) :
    Nat → Lab Source (List (List Chromosome))
  | 0 => return [parents]
  | generations + 1 => do
      let children ← breeder.breedPopulation parents population
      let survivors ← survivors children
      if survivors.isEmpty then return [parents]
      else return parents ::
        (← history breeder population survivors generations)

variable {breeder : Breeder} {population : Int}
  {parents children : List Chromosome} {middle after : Source}

/--
When no child compiles, the parents are the last population and the result.
-/
theorem ends_of_extinct (generations number : Nat)
    (bred : Lab.Ends (breeder.breedPopulation parents population) source
      (.ok children) middle)
    (extinct : children.filter Chromosome.compiles = []) :
    Lab.Ends (history breeder population parents (generations + 1)) source
        (.ok [parents]) middle ∧
      Lab.Ends (continueFrom breeder population number parents
        (generations + 1)) source (.ok parents) middle := by
  have surviving := ends_survivors children middle
  rw [extinct] at surviving
  rw [history, continueFrom]
  constructor
  · exact bred.bind (surviving.bind (.pure _ middle))
  · refine bred.bind (surviving.bind ((Lab.Ends.note _ middle).bind ?_))
    exact (Lab.Ends.note _ middle).bind (.pure parents middle)

/-- When children compile, the evolution goes on with them. -/
theorem ends_of_survivors {generations number : Nat}
    (bred : Lab.Ends (breeder.breedPopulation parents population) source
      (.ok children) middle)
    (survive : children.filter Chromosome.compiles ≠ [])
    {populations : List (List Chromosome)} {result : List Chromosome}
    (recorded : Lab.Ends
      (history breeder population (children.filter Chromosome.compiles)
        generations)
      middle (.ok populations) after)
    (continued : Lab.Ends
      (continueFrom breeder population (number + 1)
        (children.filter Chromosome.compiles) generations)
      middle (.ok result) after) :
    Lab.Ends (history breeder population parents (generations + 1)) source
        (.ok (parents :: populations)) after ∧
      Lab.Ends (continueFrom breeder population number parents
        (generations + 1)) source (.ok result) after := by
  have surviving := ends_survivors children middle
  have occupied : ¬(children.filter Chromosome.compiles).isEmpty := by
    rwa [List.isEmpty_iff]
  rw [history, continueFrom]
  constructor
  · refine bred.bind (surviving.bind ?_)
    rw [if_neg occupied]
    exact recorded.bind (.pure _ after)
  · refine bred.bind (surviving.bind ((Lab.Ends.note _ middle).bind ?_))
    rw [if_neg occupied]
    exact continued

/--
An evolution ends, and all populations that it passes through are fit, if what
fit parents beget is fit as soon as it compiles.  If everything that they beget
compiles, no generation is missing and none is smaller than asked for.
-/
theorem exists_ends_history {fit born : Chromosome → Prop}
    (begets : breeder.Begets states fit born)
    (selected : ∀ child, born child → child.compiles → fit child)
    (choosing : DrawSource.ChoosesWithin sizes states)
    (allowed : 0 ≤ population)
    (askedLater : ∀ length : Nat, length ≤ population.toNat → sizes length)
    (generations number : Nat) (populated : parents ≠ [])
    (asked : sizes parents.length) (suited : ∀ parent ∈ parents, fit parent)
    (start : states source) :
    ∃ populations result after,
      Lab.Ends (history breeder population parents generations) source
          (.ok (parents :: populations)) after ∧
        Lab.Ends (continueFrom breeder population number parents generations)
          source (.ok result) after ∧
        (parents :: populations).getLast? = some result ∧
        (∀ members ∈ populations, members ≠ [] ∧ ∀ member ∈ members,
          fit member) ∧
        ((∀ child, born child → child.compiles) → 1 ≤ population →
          populations.length = generations ∧
            ∀ members ∈ populations, members.length = population) := by
  induction generations generalizing parents number source with
  | zero =>
      exact ⟨[], parents, source, .pure _ source, .pure parents source,
        rfl, nofun, fun _ _ => ⟨rfl, nofun⟩⟩
  | succ generations ih =>
      obtain ⟨children, middle, bred, counted, areBorn, reached⟩ :=
        begets.breedPopulation choosing populated asked suited allowed start
      have undiminished (reliable : ∀ child, born child → child.compiles) :
          children.filter Chromosome.compiles = children :=
        List.filter_eq_self.mpr fun child member =>
          reliable child (areBorn child member)
      by_cases extinct : children.filter Chromosome.compiles = []
      · obtain ⟨recorded, ended⟩ :=
          ends_of_extinct generations number bred extinct
        refine ⟨[], parents, middle, recorded, ended, rfl, nofun, ?_⟩
        intro reliable some
        rw [undiminished reliable] at extinct
        rw [extinct, List.length_nil] at counted
        omega
      · have few : (children.filter Chromosome.compiles).length ≤
            population.toNat := by
          have dropped := List.length_filter_le Chromosome.compiles children
          omega
        have fits : ∀ child ∈ children.filter Chromosome.compiles,
            fit child := by
          intro child member
          obtain ⟨among, compiles⟩ := List.mem_filter.mp member
          exact selected child (areBorn child among) compiles
        obtain ⟨populations, result, after, recorded, continued, last, viable,
          full⟩ :=
          ih (number + 1) extinct (askedLater _ few) fits reached
        obtain ⟨recordedAll, ended⟩ :=
          ends_of_survivors bred extinct recorded continued
        refine ⟨_, result, after, recordedAll, ended, last, ?_, ?_⟩
        · exact List.forall_mem_cons.mpr ⟨⟨extinct, fits⟩, viable⟩
        · intro reliable some
          obtain ⟨length, sized⟩ := full reliable some
          refine ⟨congrArg Nat.succ length,
            List.forall_mem_cons.mpr ⟨?_, sized⟩⟩
          rw [undiminished reliable, counted]

end Evolution

/-! ## Genomes of one row of opcodes -/

/--
A genome of so many genes and no fragment, with given opcodes if mutation leaves
tags alone.
-/
structure Chromosome.Bred (mutation : Mutation) (opcodes : List Opcode)
    (chromosome : Chromosome) : Prop where
  length : chromosome.length = opcodes.length * Frame.size
  opcodes : mutation.kind ≠ .bits → chromosome.Shows Instruction.opcode opcodes

open Chromosome (Bred)

variable {Source : Type} [DrawSource Source] {sizes : Nat → Prop}
  {states : Source → Prop} {source : Source}

theorem Breeder.begets_bred (choosing : DrawSource.ChoosesWithin sizes states)
    (breeder : Breeder) (opcodes : List Opcode) :
    breeder.Begets states
      (fun parent => parent.compiles ∧ Bred breeder.mutation opcodes parent)
      (Bred breeder.mutation opcodes) := by
  rintro first second source ⟨compiles, bred⟩ ⟨compiles', bred'⟩ start
  obtain ⟨child, after, ends, fromParents, measured, ended⟩ :=
    Breeder.exists_ends_breed choosing
      (Chromosome.isDecodable_of_compiles compiles)
      (Chromosome.isDecodable_of_compiles compiles') start
  refine ⟨child, after, ends, ⟨measured _ bred.length bred'.length, ?_⟩, ended⟩
  intro gentle
  refine (fromParents gentle).shows (fun _ _ same _ => same) ?_
  simpa using ⟨bred.opcodes gentle, bred'.opcodes gentle⟩

theorem Chromosome.compiles_of_shows {chromosome : Chromosome}
    {opcodes : List Opcode}
    (shows : chromosome.Shows Instruction.opcode opcodes)
    (complete : ∀ output : Output, output.opcode ∈ opcodes) :
    chromosome.compiles := by
  obtain ⟨agent, made, -⟩ := Agent.exists_create_of_shows shows complete
  exact compiles_iff.mpr ⟨agent, made⟩

namespace Evolution

/--
What the populations of an evolution have in common, if it never gets stuck.
-/
structure Thrives (mutation : MutationKind) (generations population : Int)
    (seeds result : List Chromosome) (populations : List (List Chromosome)) :
    Prop where
  first : populations.head? = some seeds
  last : populations.getLast? = some result
  occupied : ∀ members ∈ populations, members ≠ []
  compiles : ∀ members ∈ populations, ∀ member ∈ members,
    ∃ agent, Agent.create member = .ok agent
  length : ∀ members ∈ populations, ∀ member ∈ members, ∀ seed ∈ seeds,
    member.length = seed.length
  /-- Unless any bit may flip, no child is dropped. -/
  full : mutation ≠ .bits → 1 ≤ population →
    populations.length = generations.toNat + 1 ∧
      (∀ members ∈ populations.tail, members.length = population) ∧
      (1 ≤ generations → result.length = population)

/--
An evolution of genomes with one row of opcodes, and no fragments, never gets
stuck.
-/
theorem exists_ends_run (choosing : DrawSource.ChoosesWithin sizes states)
    (breeder : Breeder) (generations : Int) {population : Int}
    (allowed : 0 ≤ population)
    {seeds : List Chromosome} {opcodes : List Opcode} (populated : seeds ≠ [])
    (homogeneous : ∀ seed ∈ seeds, seed.Shows Instruction.opcode opcodes)
    (long : ∀ seed ∈ seeds, seed.length = opcodes.length * Frame.size)
    (complete : ∀ output : Output, output.opcode ∈ opcodes)
    (asked : ∀ length : Nat, length ≤ max seeds.length population.toNat →
      sizes length)
    (start : states source) :
    ∃ populations result after,
      Lab.Ends (history breeder population seeds generations.toNat) source
          (.ok populations) after ∧
        Lab.Ends (run breeder generations population seeds) source
          (.ok result) after ∧
        Thrives breeder.mutation.kind generations population seeds result
          populations := by
  have fit : ∀ seed ∈ seeds, seed.compiles ∧
      Bred breeder.mutation opcodes seed := by
    intro seed member
    exact ⟨Chromosome.compiles_of_shows (homogeneous seed member) complete,
      long seed member, fun _ => homogeneous seed member⟩
  obtain ⟨populations, result, after, recorded, ended, last, viable, full⟩ :=
    exists_ends_history (breeder.begets_bred choosing opcodes)
      (fun child bred compiles => ⟨compiles, bred⟩) choosing allowed
      (fun length few => asked length (Nat.le_trans few (Nat.le_max_right _ _)))
      generations.toNat 0 populated (asked _ (Nat.le_max_left _ _)) fit start
  have suited : ∀ members ∈ seeds :: populations, members ≠ [] ∧
      ∀ member ∈ members, member.compiles ∧
        Bred breeder.mutation opcodes member :=
    List.forall_mem_cons.mpr ⟨⟨populated, fit⟩, viable⟩
  refine ⟨seeds :: populations, result, after, recorded, ended, rfl, last,
    fun members among => (suited members among).1, ?_, ?_, ?_⟩
  · intro members among member inside
    exact Chromosome.compiles_iff.mp ((suited members among).2 member inside).1
  · intro members among member inside seed founds
    rw [((suited members among).2 member inside).2.length, long seed founds]
  · intro gentle some
    obtain ⟨counted, sized⟩ := full
      (fun child bred =>
        Chromosome.compiles_of_shows (bred.opcodes gentle) complete) some
    refine ⟨congrArg Nat.succ counted, sized, fun positive => ?_⟩
    cases populations with
    | nil =>
        rw [List.length_nil] at counted
        omega
    | cons members others =>
        rw [List.getLast?_cons_cons] at last
        exact sized result (List.mem_of_getLast? last)

end Evolution

/-! ## The demonstration -/

namespace Seeds

/-- The opcodes of a layer of five weighted sums that are summed for an axis. -/
def axisOpcodes (axis : Output) : List Opcode :=
  (List.replicate 5 [.createWeightedSum, .readFrom]).flatten ++
    .createSum :: List.replicate 5 .readFrom ++ [axis.opcode]

/-- The opcodes of a perceptron. -/
def perceptronOpcodes : List Opcode :=
  [.createFixed, .createRandom, .createRandom] ++ axisOpcodes .dx ++
    axisOpcodes .dy

/-- A genome with the opcodes of a perceptron that ends with its last gene. -/
structure IsPerceptron (chromosome : Chromosome) : Prop where
  shows : chromosome.Shows Instruction.opcode perceptronOpcodes
  length : chromosome.length = perceptronOpcodes.length * Frame.size

theorem mem_perceptronOpcodes (output : Output) :
    output.opcode ∈ perceptronOpcodes := by
  cases output <;> decide

/-- It shows on its opcodes that what has been written is a perceptron. -/
theorem exists_perceptron {written : Except Fault Program}
    (opcodes : (written.map Program.opcodes).toOption =
      some perceptronOpcodes) :
    ∃ program, written = .ok program ∧ IsPerceptron (.ofProgram program) := by
  cases written with
  | error fault => cases opcodes
  | ok program =>
      have same : program.opcodes = perceptronOpcodes := Option.some.inj opcodes
      refine ⟨program, rfl,
        ⟨program, Chromosome.program_ofProgram program, same⟩, ?_⟩
      rw [Chromosome.length, Chromosome.bytes_ofProgram,
        Program.length_encode, ← same, Program.opcodes, List.length_map]

end Seeds

/-- The four seeds that are bred are perceptrons. -/
theorem Demonstration.exists_founders :
    ∃ seeds, founders = .ok seeds ∧ seeds.length = 4 ∧
      ∀ seed ∈ seeds, Seeds.IsPerceptron seed := by
  obtain ⟨mover, wroteMover, isMover⟩ :=
    @Seeds.exists_perceptron Seeds.downRightMover (by decide +kernel)
  obtain ⟨opposite, wroteOpposite, isOpposite⟩ :=
    @Seeds.exists_perceptron Seeds.upLeftMover (by decide +kernel)
  obtain ⟨central, wroteCentral, isCentral⟩ :=
    @Seeds.exists_perceptron (Seeds.centerMover 10 11) (by decide +kernel)
  obtain ⟨random, wroteRandom, isRandom⟩ :=
    @Seeds.exists_perceptron Seeds.randomMover (by decide +kernel)
  refine ⟨[.ofProgram mover, .ofProgram opposite, .ofProgram central,
    .ofProgram random], ?_, rfl, ?_⟩
  · rw [founders, wroteMover, wroteOpposite, wroteCentral, wroteRandom]
    rfl
  · simpa using ⟨isMover, isOpposite, isCentral, isRandom⟩

/--
The generator that breeding draws from: that of the seed, if there is one.
-/
def Settings.generator (settings : Settings) (source : Generator) : Generator :=
  match settings.seed with
  | some seed => .seeded (.ofSeed seed.toNat)
  | none => source

/-- A breeder is prepared unless the seed is negative. -/
theorem Breeder.ends_prepare {settings : Settings}
    (seedable : ∀ seed, settings.seed = some seed → 0 ≤ seed)
    (source : Generator) :
    Lab.Ends (Breeder.prepare settings) source (.ok (.ofSettings settings))
      (settings.generator source) := by
  intro journal
  rw [prepare, Settings.generator]
  cases given : settings.seed with
  | none => exact ⟨_, rfl⟩
  | some seed =>
      have allowed : ¬seed < 0 := Int.not_lt.mpr (seedable seed given)
      dsimp only
      rw [Generator.ofSeed, if_neg allowed]
      exact ⟨_, rfl⟩

namespace Demonstration

open Evolution (history run Thrives)

end Demonstration

end NeuralGenome
