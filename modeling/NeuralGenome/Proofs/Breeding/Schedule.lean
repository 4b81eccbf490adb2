import NeuralGenome.Proofs.Breeding.Crossover
import NeuralGenome.Proofs.Breeding.Inheritance
import NeuralGenome.Proofs.Breeding.OperandMutation
import NeuralGenome.Proofs.Random.Stream

/-!
# The order of draws in breeding

A breeder, its way of combining parents and its mutation share one source, and
how much each of them draws depends on what was drawn before.  Here it is told
number by number: two for the parents, then those for combining them, then those
for the mutation of what they were combined to; the numbers for the next child
follow at once.  What comes of a row of numbers is a function of the numbers, so
that a child is known when the place is known where its numbers start.  What a
mutation does is told a second time by the bits of the genome: `Mutation.Alters`
says which number decides about which bit.
-/

namespace NeuralGenome

/-- The genes of a genome, none if it cannot be decoded. -/
def Chromosome.genes (chromosome : Chromosome) : Program :=
  chromosome.program.toOption.getD []

theorem Chromosome.genes_of_program {chromosome : Chromosome}
    {program : Program} (decoded : chromosome.program = .ok program) :
    chromosome.genes = program := by
  rw [genes, decoded]
  rfl

variable {Source : Type} [DrawSource Source] {source after : Source}
  {draws : List Binary64}

/-! ## Combining parents -/

namespace Reproduction

/-- How many numbers are drawn to combine two parents. -/
def drawn (reproduction : Reproduction) (first second : Chromosome) : Nat :=
  match reproduction with
  | firstParent => 0
  | randomParent => 1
  | randomCodes => max first.frameCount second.frameCount

/-- What two parents are combined to when these numbers are drawn. -/
def combined (reproduction : Reproduction) (first second : Chromosome)
    (draws : List Binary64) : Chromosome :=
  match reproduction with
  | firstParent => first
  | randomParent =>
      if Crossover.favoursFirst (draws.headD .zero) then first else second
  | randomCodes => .ofProgram (Crossover.child first.genes second.genes draws)

variable {first second : Chromosome}

theorem ends_combine (reproduction : Reproduction)
    (decodable : first.isDecodable) (decodableToo : second.isDecodable)
    (taken : DrawSource.take (reproduction.drawn first second) source =
      (draws, after)) :
    Lab.Ends (reproduction.combine first second) source
      (.ok (reproduction.combined first second draws)) after := by
  obtain ⟨left, decoded⟩ :=
    Chromosome.isDecodable_iff_exists_program.mp decodable
  obtain ⟨right, decodedToo⟩ :=
    Chromosome.isDecodable_iff_exists_program.mp decodableToo
  cases reproduction with
  | firstParent =>
      cases taken
      exact .pure first _
  | randomParent =>
      cases taken
      exact (Lab.Ends.draw DrawSource.next source).bind (.pure _ _)
  | randomCodes =>
      have crossed := Crossover.ends_cross decoded decodedToo source
      rw [drawn, ← Chromosome.length_of_program decoded,
        ← Chromosome.length_of_program decodedToo] at taken
      rw [taken] at crossed
      rw [combined, Chromosome.genes_of_program decoded,
        Chromosome.genes_of_program decodedToo]
      exact crossed

theorem isDecodable_combined (reproduction : Reproduction)
    (decodable : first.isDecodable)
    (decodableToo : second.isDecodable) (draws : List Binary64) :
    (reproduction.combined first second draws).isDecodable := by
  cases reproduction with
  | firstParent => exact decodable
  | randomParent =>
      rw [combined]
      split
      · exact decodable
      · exact decodableToo
  | randomCodes =>
      exact Chromosome.isDecodable_iff_exists_program.mpr
        ⟨_, Chromosome.program_ofProgram _⟩

end Reproduction

/-! ## Mutation -/

namespace Mutation

/-- How many numbers are drawn to mutate a genome. -/
def drawn (mutation : Mutation) (chromosome : Chromosome) : Nat :=
  match mutation with
  | nothing => 0
  | bits _ => 8 * chromosome.length
  | weights _ => 64 * chromosome.tags.count Opcode.createWeightedSum.tag

/-- What becomes of a genome when these numbers are drawn. -/
def mutant (mutation : Mutation) (chromosome : Chromosome)
    (draws : List Binary64) : Chromosome :=
  match mutation with
  | nothing => chromosome
  | bits probability => flipped probability draws chromosome
  | weights probability => reweighed (mask probability draws) chromosome

theorem ends_apply (mutation : Mutation) {chromosome : Chromosome}
    (decodable : chromosome.isDecodable)
    (taken : DrawSource.take (mutation.drawn chromosome) source =
      (draws, after)) :
    Lab.Ends (mutation.apply chromosome) source
      (.ok (mutation.mutant chromosome draws)) after := by
  cases mutation with
  | nothing =>
      cases taken
      exact .pure chromosome _
  | bits probability => exact ends_mutateBits probability taken
  | weights probability =>
      obtain ⟨program, decoded⟩ :=
        Chromosome.isDecodable_iff_exists_program.mp decodable
      exact ends_mutateWeights probability decoded taken

/--
What a mutation makes of a genome with the numbers that are drawn, told by bits.
A bit that may be turned is turned exactly when the number in its place falls
under the probability.
-/
def Alters (mutation : Mutation) (draws : List Binary64)
    (chromosome mutant : Chromosome) : Prop :=
  match mutation with
  | nothing => mutant = chromosome
  | bits probability =>
      mutant.length = chromosome.length ∧
        ∀ place < 8 * chromosome.length, ∃ draw, draws[place]? = some draw ∧
          Bits.bit mutant.bytes place =
            Bool.xor (Bits.bit chromosome.bytes place)
              (draw.less probability.value)
  | weights probability => Reweighs probability draws chromosome mutant

theorem alters_mutant (mutation : Mutation) {chromosome : Chromosome}
    (decodable : chromosome.isDecodable)
    (counted : draws.length = mutation.drawn chromosome) :
    mutation.Alters draws chromosome (mutation.mutant chromosome draws) := by
  cases mutation with
  | nothing => rfl
  | bits probability =>
      exact ⟨length_flipped counted,
        fun place inside => exists_bit_flipped counted inside⟩
  | weights probability =>
      obtain ⟨program, decoded⟩ :=
        Chromosome.isDecodable_iff_exists_program.mp decodable
      exact reweighs_reweighed decoded counted

end Mutation

/-! ## Children -/

namespace Breeder

/--
A child of parents that are chosen by the two numbers at a place of a stream,
and the place behind all numbers that are drawn for it.  The child is what its
mutation makes of the combined parents, which is also told bit by bit.
-/
def Bears (breeder : Breeder) (parents : List Chromosome)
    (choose : Binary64 → Binary64 → Int × Int) (stream : Nat → Binary64)
    (start : Nat) (child : Chromosome) (finish : Nat) : Prop :=
  ∃ first second combined : Chromosome,
    let chosen := choose (stream start) (stream (start + 1))
    let combining := start + 2
    let mutating := combining + breeder.reproduction.drawn first second
    let turning := window stream mutating (breeder.mutation.drawn combined)
    ListPosition.find parents chosen.1 = .ok first ∧
      ListPosition.find parents chosen.2 = .ok second ∧
      combined = breeder.reproduction.combined first second
        (window stream combining
          (breeder.reproduction.drawn first second)) ∧
      child = breeder.mutation.mutant combined turning ∧
      breeder.mutation.Alters turning combined child ∧
      finish = mutating + breeder.mutation.drawn combined

section Streams

variable (breeder : Breeder) {parents : List Chromosome}
  {choose : Binary64 → Binary64 → Int × Int} {stream : Nat → Binary64}
  {state : Nat → Source}

/--
Combining two parents and mutating the result take the numbers at the next
places.
-/
theorem ends_breed
    (streams : DrawSource.Streams parents.length choose stream state)
    {first second : Chromosome} (decodable : first.isDecodable)
    (decodableToo : second.isDecodable) (place : Nat) :
    let mutating := place + breeder.reproduction.drawn first second
    let combined := breeder.reproduction.combined first second
      (window stream place (breeder.reproduction.drawn first second))
    Lab.Ends (breeder.breed first second) (state place)
      (.ok (breeder.mutation.mutant combined
        (window stream mutating (breeder.mutation.drawn combined))))
      (state (mutating + breeder.mutation.drawn combined)) := by
  intro mutating combined
  have isDecodable : combined.isDecodable :=
    breeder.reproduction.isDecodable_combined decodable decodableToo _
  exact (breeder.reproduction.ends_combine decodable decodableToo
      (streams.take place _)).bind
    (breeder.mutation.ends_apply isDecodable (streams.take mutating _))

theorem exists_bears (decodable : ∀ parent ∈ parents, parent.isDecodable)
    (streams : DrawSource.Streams parents.length choose stream state)
    (start : Nat) :
    ∃ child finish, breeder.Bears parents choose stream start child finish ∧
      Lab.Ends (breeder.breedOne parents) (state start) (.ok child)
        (state finish) := by
  obtain ⟨within, withinToo⟩ := streams.within start
  obtain ⟨first, member, found⟩ := within.exists_find
  obtain ⟨second, memberToo, foundToo⟩ := withinToo.exists_find
  have isDecodable (draws : List Binary64) :=
    breeder.reproduction.isDecodable_combined (decodable first member)
      (decodable second memberToo) draws
  refine ⟨_, _, ⟨first, second, _, found, foundToo, rfl, rfl, ?_, rfl⟩,
    ends_breedOne (streams.nextPair start) found foundToo
      (ends_breed breeder streams (decodable first member)
        (decodable second memberToo) _)⟩
  exact breeder.mutation.alters_mutant (isDecodable _) (length_window _ _ _)

/--
The children of a stream, and the places where the numbers for them start.
-/
theorem exists_children (decodable : ∀ parent ∈ parents, parent.isDecodable)
    (streams : DrawSource.Streams parents.length choose stream state) :
    ∃ (children : Nat → Chromosome) (starts : Nat → Nat), starts 0 = 0 ∧
      ∀ number,
        breeder.Bears parents choose stream (starts number) (children number)
            (starts (number + 1)) ∧
          Lab.Ends (breeder.breedOne parents) (state (starts number))
            (.ok (children number)) (state (starts (number + 1))) := by
  choose child finish bears ends using fun start =>
    exists_bears breeder decodable streams start
  refine ⟨fun number => child (finish^[number] 0),
    fun number => finish^[number] 0, rfl, fun number => ?_⟩
  dsimp only
  rw [Function.iterate_succ_apply']
  exact ⟨bears _, ends _⟩

/--
Children are bred one after the other, from the place on where the first of them
starts.
-/
theorem ends_breedMany {children : Nat → Chromosome} {starts : Nat → Nat}
    (each : ∀ number,
      Lab.Ends (breeder.breedOne parents) (state (starts number))
        (.ok (children number)) (state (starts (number + 1))))
    (count first : Nat) :
    Lab.Ends (breeder.breedMany parents count) (state (starts first))
      (.ok ((List.range' first count).map children))
        (state (starts (first + count))) := by
  induction count generalizing first with
  | zero => exact .pure [] _
  | succ count ih =>
      have later := ih (first + 1)
      rw [Nat.add_assoc, Nat.add_comm 1] at later
      rw [List.range'_succ, List.map_cons]
      exact (each first).bind (later.bind (.pure _ _))

end Streams

/-! ## Populations -/

/-- Breeding more children is going on with breeding. -/
theorem breedMany_add (breeder : Breeder) (parents : List Chromosome)
    (first second : Nat) :
    (breeder.breedMany parents (first + second) :
      Lab Source (List Chromosome)) = do
      let older ← breeder.breedMany parents first
      let younger ← breeder.breedMany parents second
      return older ++ younger := by
  induction first with
  | zero =>
      simp only [breedMany, Nat.zero_add, pure_bind, List.nil_append, bind_pure]
  | succ first ih =>
      rw [Nat.succ_add, breedMany, breedMany, ih]
      simp only [bind_assoc, pure_bind, List.cons_append]

theorem ends_breedPopulation_add {breeder : Breeder}
    {parents older younger : List Chromosome}
    (populated : parents ≠ []) {middle : Source} {first second : Nat}
    (before : Lab.Ends (breeder.breedPopulation parents first) source
      (.ok older) middle)
    (later : Lab.Ends (breeder.breedPopulation parents second) middle
      (.ok younger) after) :
    Lab.Ends (breeder.breedPopulation parents (first + second : Nat)) source
      (.ok (older ++ younger)) after := by
  rw [ends_breedPopulation_iff populated (Int.natCast_nonneg _),
    Int.toNat_natCast] at before later
  rw [ends_breedPopulation_iff populated (Int.natCast_nonneg _),
    Int.toNat_natCast, breedMany_add]
  exact before.bind (later.bind (.pure _ _))

/-- Parents that can be decoded have children, whatever is drawn. -/
theorem begets_of_isDecodable (breeder : Breeder) {sizes : Nat → Prop}
    {states : Source → Prop}
    (choosing : DrawSource.ChoosesWithin sizes states) :
    breeder.Begets states (·.isDecodable) fun _ => True := by
  intro first second source decodable decodableToo start
  obtain ⟨child, after, bred, -, -, ended⟩ :=
    breeder.exists_ends_breed choosing decodable decodableToo start
  exact ⟨child, after, bred, trivial, ended⟩

/--
The draws of breeding are settled for all breeders, so for those that any
settings describe, for all parents that can be decoded, and for all numbers of
children.  From a source that chooses parents that there are, as many children
are bred as are asked for.  From a source that is a stream there is a row of
children, and each is bred from the numbers behind those of the one before: two
that choose its parents, then those that combining the parents takes, then those
that the mutation takes, one for each bit that it may turn.  A population that
is bred where some child of the row starts is a part of the row, and it leaves
the source where the next child starts.  From any source, more children are bred
by going on.
-/
theorem breedPopulation_scheduled (breeder : Breeder)
    {parents : List Chromosome} (populated : parents ≠ [])
    (decodable : ∀ parent ∈ parents, parent.isDecodable) :
    (∀ {Any : Type} [DrawSource Any] {sizes : Nat → Prop} {states : Any → Prop}
        {source : Any},
      DrawSource.ChoosesWithin sizes states → sizes parents.length →
        states source →
        ∀ count : Nat, ∃ children after,
          Lab.Ends (breeder.breedPopulation parents count) source
              (.ok children) after ∧
            children.length = count) ∧
      (∀ {Any : Type} [DrawSource Any]
          {choose : Binary64 → Binary64 → Int × Int} {stream : Nat → Binary64}
          {state : Nat → Any},
        DrawSource.Streams parents.length choose stream state →
          ∃ (children : Nat → Chromosome) (starts : Nat → Nat), starts 0 = 0 ∧
            (∀ number, breeder.Bears parents choose stream (starts number)
              (children number) (starts (number + 1))) ∧
            ∀ first count : Nat,
              Lab.Ends (breeder.breedPopulation parents count)
                (state (starts first))
                (.ok ((List.range' first count).map children))
                (state (starts (first + count)))) ∧
      ∀ {Any : Type} [DrawSource Any] {source middle after : Any}
          {first second : Nat} {older younger : List Chromosome},
        Lab.Ends (breeder.breedPopulation parents first) source (.ok older)
            middle →
          Lab.Ends (breeder.breedPopulation parents second) middle
              (.ok younger) after →
            Lab.Ends (breeder.breedPopulation parents (first + second : Nat))
              source (.ok (older ++ younger)) after := by
  refine ⟨fun choosing asked start count => ?_, fun streams => ?_,
    fun before later => ends_breedPopulation_add populated before later⟩
  · obtain ⟨children, after, bred, counted, -⟩ :=
      (breeder.begets_of_isDecodable choosing).breedPopulation choosing
        populated asked decodable (Int.natCast_nonneg count) start
    exact ⟨children, after, bred, Int.ofNat_inj.mp counted⟩
  · obtain ⟨children, starts, start, each⟩ :=
      breeder.exists_children decodable streams
    refine ⟨children, starts, start,
      fun number => (each number).1, fun first count => ?_⟩
    rw [ends_breedPopulation_iff populated (Int.natCast_nonneg count),
      Int.toNat_natCast]
    exact ends_breedMany breeder (fun number => (each number).2) count first

/-- A weight of one, and a sum. -/
def weightAndSum : List Chromosome :=
  [⟨[3, 0x3f, 0xf0, 0, 0, 0, 0, 0, 0]⟩, ⟨[2, 0, 0, 0, 0, 0, 0, 0, 0]⟩]

/-- Crossover, and mutation of weights under one half. -/
def evenBreeder : Breeder :=
  ⟨.randomCodes, .weights ⟨.half, by decide⟩⟩

/--
Zero and one half in turn choose the weight and the sum as parents and the gene
of the weight, whose bits take sixty-four numbers: one half leaves the sign,
zero turns the bit behind it.  The second child starts behind them.
-/
theorem breedPopulation_scheduled_alternating :
    weightAndSum ≠ [] ∧ (∀ parent ∈ weightAndSum, parent.isDecodable) ∧
      (∃ children after,
        Lab.Ends (evenBreeder.breedPopulation weightAndSum 3)
            (.seeded (.ofSeed 9) : Generator) (.ok children) after ∧
          children.length = 3) ∧
      DrawSource.Streams weightAndSum.length
        (fun first second => (Script.target weightAndSum.length first,
          Script.target weightAndSum.length second))
        (fun place => (Script.mk [.zero, .half] place).current)
          (Script.mk [.zero, .half]) ∧
      ∃ (children : Nat → Chromosome) (starts : Nat → Nat),
        Bits.bit (children 0).bytes 8 = false ∧
        Bits.bit (children 0).bytes 9 = true ∧ starts 1 = 2 + 1 + 64 ∧
        Lab.Ends (evenBreeder.breedPopulation weightAndSum 3)
          (Script.mk [.zero, .half] 0)
          (.ok [children 0, children 1, children 2])
          (Script.mk [.zero, .half] (starts 3)) := by
  have populated : weightAndSum ≠ [] := by decide
  have decodable :
      ∀ parent ∈ weightAndSum, parent.isDecodable := by decide +kernel
  have points : ∀ draw ∈ [Binary64.zero, .half],
      Script.Points weightAndSum.length draw := by
    decide +kernel
  have streams := Script.streams (by decide) points
  obtain ⟨bred, scheduled, adds⟩ :=
    breedPopulation_scheduled evenBreeder populated decodable
  obtain ⟨children, starts, start, bears, ends⟩ := scheduled streams
  have all := adds (ends 0 1) (ends (0 + 1) 2)
  rw [start] at all
  obtain ⟨first, second, combined, found, foundToo, rfl, -, altered, finish⟩ :=
    bears 0
  have zero : (Script.mk [.zero, .half] 0).current = .zero := by decide
  have half : (Script.mk [.zero, .half] (0 + 1)).current = .half := by decide
  dsimp only at found foundToo
  rw [start, zero] at found
  rw [start, half] at foundToo
  rw [start] at altered finish
  have weight : ListPosition.find weightAndSum
      (Script.target weightAndSum.length .zero) =
        .ok ⟨[3, 0x3f, 0xf0, 0, 0, 0, 0, 0, 0]⟩ := by decide +kernel
  have sum : ListPosition.find weightAndSum
      (Script.target weightAndSum.length .half) =
        .ok ⟨[2, 0, 0, 0, 0, 0, 0, 0, 0]⟩ := by decide +kernel
  rw [weight] at found
  rw [sum] at foundToo
  cases found
  cases foundToo
  have reweighs :
      Mutation.Reweighs ⟨.half, by decide⟩ _ _ (children 0) := altered
  obtain ⟨_, drawn, sign⟩ :=
    reweighs.inside 0 (by decide +kernel) 0 (by decide)
  obtain ⟨_, drawnToo, behind⟩ :=
    reweighs.inside 0 (by decide +kernel) 1 (by decide)
  cases drawn
  cases drawnToo
  exact ⟨populated, decodable,
    bred (Generator.choosesWithin fun _ => True) trivial ⟨_, rfl⟩ 3, streams,
    children, starts, sign.trans (by decide +kernel),
    behind.trans (by decide +kernel), finish.trans (by decide +kernel), all⟩

end Breeder

end NeuralGenome
