import NeuralGenome.Proofs.Seeds.Heading

/-!
# Seeds that do not look where they are

All five inputs of a perceptron feed both of its outputs.  The seeds for fixed
moves and for random steps weigh the position with zero, and each axis of a
random step weighs the draw of the other axis with zero too.  What is weighed
with zero cancels exactly, so that the moves obey a rule in which only the two
draws of the call occur, or nothing at all.
-/

namespace NeuralGenome

/-! ## Networks that obey a rule -/

/--
Wherever it is near and whatever it remembers, a network with two allowed draws
asks for the move that a rule makes of them.
-/
def Network.Obeys (network : Network) (allowed : Binary64 → Prop)
    (rule : Binary64 → Binary64 → Move) : Prop :=
  ∀ ⦃position : Position⦄ ⦃memory : Memory⦄ ⦃first second : Binary64⦄
      ⦃after : List Binary64⦄,
    position.IsNear → memory.x.Denotes position.x →
      memory.y.Denotes position.y →
    allowed first → allowed second →
      network.Settles memory [first, second] after →
      network.asked after = rule first second

/-- A course that is the same everywhere is a rule that looks at no draw. -/
theorem Network.Steers.obeys {network : Network} {move : Move}
    (steers : network.Steers fun _ => move) :
    network.Obeys Binary64.IsFraction fun _ _ => move := by
  intro position memory first second after near denotesX denotesY fraction
    fractionToo settles
  obtain ⟨dx, dy⟩ := steers near denotesX denotesY (List.forall_mem_cons.mpr
    ⟨fraction, List.forall_mem_singleton.mpr fractionToo⟩) settles
  rw [asked, dx, dy]

namespace Agent

/--
What an agent meets when it decides: a position and the two draws that it takes.
-/
structure Occasion where
  position : Position
  first : Binary64
  second : Binary64

/-- A near position with draws that are allowed. -/
def Occasion.Admits (allowed : Binary64 → Prop) (occasion : Occasion) : Prop :=
  occasion.position.IsNear ∧ allowed occasion.first ∧ allowed occasion.second

/-- Both draws, in order. -/
def Occasion.draws (occasion : Occasion) : List Binary64 :=
  [occasion.first, occasion.second]

/--
After any decisions at all, the agent decides on each occasion by a rule for the
two draws, and takes no others.
-/
def Blind (agent : Agent) (allowed : Binary64 → Prop)
    (rule : Binary64 → Binary64 → Move) : Prop :=
  ∀ {Source : Type} [DrawSource Source] (source : Source)
    (earlier : List Position)
    (occasions : List Occasion),
    (∀ occasion ∈ occasions, occasion.Admits allowed) →
      ∃ later, ((Agent.decisions earlier).run (agent, source)).2.1.Alone
        (occasions.map Occasion.position) (occasions.flatMap Occasion.draws)
        (occasions.map fun occasion =>
          rule occasion.first occasion.second) later

variable {agent : Agent} {allowed : Binary64 → Prop}
  {rule : Binary64 → Binary64 → Move}

theorem Compiled.exists_alone (compiled : agent.Compiled)
    (two : agent.network.draws = 2)
    (obeys : agent.network.Obeys allowed rule) {occasions : List Occasion}
    (admitted : ∀ occasion ∈ occasions, occasion.Admits allowed) :
    ∃ later, agent.Alone (occasions.map Occasion.position)
      (occasions.flatMap Occasion.draws)
      (occasions.map fun occasion => rule occasion.first occasion.second)
        later := by
  -- over the occasions, with any memory that the network can have
  induction occasions generalizing agent with
  | nil => exact ⟨agent, Alone.nil agent⟩
  | cons occasion rest ih =>
      obtain ⟨⟨near, first, second⟩, others⟩ := List.forall_mem_cons.mp admitted
      obtain ⟨x, y, convertsX, convertsY, denotesX, denotesY⟩ :=
        near.exists_patterns
      have enough : occasion.draws.length = agent.network.draws := two.symm
      obtain ⟨signals, settles, decides⟩ :=
        compiled.exists_settles_decides convertsX convertsY enough
      rw [obeys near denotesX denotesY first second settles] at decides
      let memory : Memory :=
        { agent.memory.bound (x, y) with signals := signals }
      have reached : (agent.withMemory memory).Compiled :=
        compiled.withMemory settles.length
      obtain ⟨later, alone⟩ := ih reached two obeys others
      exact ⟨later, Alone.cons decides alone⟩

/-- A program whose network obeys a rule makes an agent that does. -/
theorem exists_create_blind {program : Program} {network : Network}
    (made : program.compiled.network = .ok network) (two : network.draws = 2) :
    ∃ agent, create (.ofProgram program) = .ok agent ∧
      ∀ {allowed : Binary64 → Prop} {rule : Binary64 → Binary64 → Move},
        network.Obeys allowed rule → agent.Blind allowed rule := by
  have created := create_of_network (Chromosome.program_ofProgram program) made
  have compiled := Compiled.of_create created
  refine ⟨_, created, ?_⟩
  intro allowed rule obeys Source _ source earlier occasions admitted
  obtain ⟨memory, count, sized, reached⟩ :=
    compiled.exists_after_decisions earlier source
  rw [reached]
  exact (compiled.withMemory sized).exists_alone two obeys admitted

end Agent

namespace Seeds

/-! ## Perceptrons that weigh a single draw on each axis -/

section Perceptrons

variable {network : Network} {dxWeights dyWeights : List Binary64}

theorem countP_axisOrigins (first : Nat) (weights : List Binary64) :
    (axisOrigins first weights).countP Origin.isRandom = 0 := by
  rw [axisOrigins, List.countP_append, ← List.map_uncurry_zip_eq_zipWith,
    List.countP_map]
  exact congrFun List.countP_false _

/-- A perceptron draws twice. -/
theorem draws_perceptron
    (drawn : network.neurons =
      (perceptronPlan dxWeights dyWeights).origins.map Origin.linked) :
    network.draws = 2 := by
  have randoms : LinkedNeuron.isRandom ∘ Origin.linked = Origin.isRandom :=
    funext Origin.isRandom_linked
  rw [Network.draws, drawn, List.countP_map, randoms, perceptronPlan,
    List.countP_append, List.countP_append, countP_axisOrigins,
    countP_axisOrigins]
  rfl

/--
Minus one and a single number after it, with zeros around them, are added up
exactly.
-/
theorem wander_sum {values : List Binary64} {third fourth : Int}
    (count : List.Forall₂ Binary64.Counts values
      [0, 0, -Binary64.quantaPerOne, third, fourth])
    (single : third = 0 ∨ fourth = 0)
    (exact : Binary64.IsExact (third + fourth - Binary64.quantaPerOne).natAbs) :
    (Binary64.sum values).Counts (third + fourth - Binary64.quantaPerOne) := by
  have minusOne : Binary64.IsExact (-(Binary64.quantaPerOne : Int)).natAbs := by
    rw [Int.neg_eq_neg_one_mul]
    exact Binary64.isExact_integer (by decide)
  have total : ([0, 0, -Binary64.quantaPerOne, third, fourth] : List Int).sum =
      third + fourth - Binary64.quantaPerOne := by
    simp only [List.sum_cons, List.sum_nil]
    omega
  rw [← total]
  refine Binary64.Counts.sum count (by rw [count.length_eq]; simp) ?_
  have turned : -(Binary64.quantaPerOne : Int) + third + fourth =
      third + fourth - Binary64.quantaPerOne := by omega
  simp only [Binary64.AddsExactly, Int.add_zero, Int.zero_add,
    Int.natAbs_zero, turned]
  refine ⟨Binary64.isExact_zero, Binary64.isExact_zero, minusOne, ?_, exact,
    trivial⟩
  rcases single with rfl | rfl
  · rwa [Int.add_zero]
  · rwa [← turned, Int.add_zero] at exact

/--
An axis that weighs one draw with two, and the other with zero, asks for the
step of that draw.
-/
theorem axis_wanders {memory : Memory} {draws after : List Binary64}
    (settles : network.Settles memory draws after) {position : Position}
    (senses : Senses after position) (near : position.IsNear) {first : Nat}
    (room : 5 ≤ first) {weights : List Binary64} {wd we : Int}
    (denote : List.Forall₂ Binary64.Denotes weights [0, 0, -1, wd, we])
    (found : ∀ (place : Nat) (origin : Origin),
      (axisOrigins first weights)[place]? = some origin →
      network.neurons[first + place]? = some origin.linked)
    {draw : Binary64} (grain : draw.IsGrain)
    (which : after.getD 3 .zero = draw ∧ wd = 2 ∧ we = 0 ∨
      after.getD 4 .zero = draw ∧ wd = 0 ∧ we = 2) :
    (after.getD (first + 5) .zero).unitStep = draw.drawnStep := by
  simp only [List.forall₂_cons_right_iff, List.forall₂_nil_right_iff] at denote
  obtain ⟨a, _, denotesA, ⟨b, _, denotesB, ⟨c, _, denotesC, ⟨d, _, denotesD,
    ⟨e, _, denotesE, rfl, rfl⟩, rfl⟩, rfl⟩, rfl⟩, rfl⟩ := denote
  rw [axis_emits settles room found]
  refine grain.unitStep ?_
  have x := senses.x.weigh_zero
    (Binary64.isExact_integer (Nat.lt_of_le_of_lt near.1 (by decide))) denotesA
  have y := senses.y.weigh_zero
    (Binary64.isExact_integer (Nat.lt_of_le_of_lt near.2 (by decide))) denotesB
  have one : ((Binary64.sum [after.getD 2 .zero]).mul c).Counts
      (-Binary64.quantaPerOne) := by
    have weighed := senses.one.weigh denotesC (by decide) (by decide)
    rwa [Binary64.Denotes, Int.one_mul, ← Int.neg_eq_neg_one_mul] at weighed
  rcases which with ⟨here, rfl, rfl⟩ | ⟨here, rfl, rfl⟩
  · have other := Binary64.denotes_zero_iff.mp (senses.other.weigh denotesE)
    rw [here]
    have total := wander_sum
      (.cons x (.cons y
        (.cons one (.cons (grain.weigh denotesD) (.cons other .nil)))))
      (.inr rfl) (by rw [Int.add_zero]; exact grain.isExact_twice.2)
    rwa [Int.add_zero] at total
  · have other := Binary64.denotes_zero_iff.mp (senses.random.weigh denotesD)
    rw [here]
    have total := wander_sum
      (.cons x (.cons y
        (.cons one (.cons other (.cons (grain.weigh denotesE) .nil)))))
      (.inl rfl) (by rw [Int.zero_add]; exact grain.isExact_twice.2)
    rwa [Int.zero_add] at total

/-- On each axis one draw counts, twice and less one. -/
theorem obeys_wanderer
    (drawn : network.neurons =
      (perceptronPlan dxWeights dyWeights).origins.map Origin.linked)
    (dx : network.dx = 10) (dy : network.dy = 16)
    (denoteDx : List.Forall₂ Binary64.Denotes dxWeights [0, 0, -1, 2, 0])
    (denoteDy : List.Forall₂ Binary64.Denotes dyWeights [0, 0, -1, 0, 2]) :
    network.Obeys Binary64.IsGrain fun first second => ⟨first.drawnStep,
      second.drawnStep⟩ := by
  obtain ⟨inputs, dxAxis, dyAxis⟩ := perceptron_parts drawn denoteDx.length_eq
  intro position memory first second after near denotesX denotesY grain
    grainToo settles
  have senses := senses settles inputs (List.forall_mem_cons.mpr
    ⟨grain.1, List.forall_mem_singleton.mpr grainToo.1⟩) denotesX denotesY
  have firstHeard : after.getD 3 .zero = first := by
    rw [input_emits settles inputs (rfl : inputOrigins[3]? = some .random) rfl,
      Network.turn_eq drawn]
    rfl
  have secondHeard : after.getD 4 .zero = second := by
    rw [input_emits settles inputs (rfl : inputOrigins[4]? = some .random) rfl,
      Network.turn_eq drawn]
    rfl
  have dxStep :=
    axis_wanders settles senses near (Nat.le_refl 5) denoteDx dxAxis grain
      (.inl ⟨firstHeard, rfl, rfl⟩)
  have dyStep := axis_wanders settles senses near (by decide : 5 ≤ 11) denoteDy
    dyAxis grainToo (.inr ⟨secondHeard, rfl, rfl⟩)
  rw [Network.asked, dx, dy]
  exact congrArg₂ Move.mk dxStep dyStep

end Perceptrons

/-! ## The agents of the seeds -/

/-- The seeds for fixed moves, each with its own move. -/
def constantMovers : List (Except Fault Program × Move) :=
  [(nonMover, ⟨0, 0⟩), (upMover, ⟨0, -1⟩), (upLeftMover, ⟨-1, -1⟩),
    (upRightMover, ⟨1, -1⟩), (downMover, ⟨0, 1⟩), (downLeftMover, ⟨-1, 1⟩),
    (downRightMover, ⟨1, 1⟩), (leftMover, ⟨-1, 0⟩), (rightMover, ⟨1, 0⟩)]

/--
A perceptron of integer weights is made into an agent that obeys what its
network does.
-/
theorem exists_agent_obeys {dxNumbers dyNumbers : List Int}
    (dxLong : dxNumbers.length = 5) (dyLong : dyNumbers.length = 5)
    (dxShort : ∀ weight ∈ dxNumbers, weight.natAbs < 0x20000000000000)
    (dyShort : ∀ weight ∈ dyNumbers, weight.natAbs < 0x20000000000000)
    {allowed : Binary64 → Prop} {rule : Binary64 → Binary64 → Move}
    (obeys : ∀ {network : Network} {dxWeights dyWeights : List Binary64},
      network.neurons =
        (perceptronPlan dxWeights dyWeights).origins.map Origin.linked →
      network.dx = 10 → network.dy = 16 →
        List.Forall₂ Binary64.Denotes dxWeights dxNumbers →
      List.Forall₂ Binary64.Denotes dyWeights dyNumbers →
        network.Obeys allowed rule) :
    ∃ made, agent (perceptrons (dxNumbers.map whole) (dyNumbers.map whole)) =
        .ok made ∧
      made.Blind allowed rule := by
  obtain ⟨program, network, dxValues, dyValues, written, made, drawn, dx, dy,
    denoteDx, denoteDy⟩ := exists_whole_perceptron dxLong dyLong dxShort dyShort
  obtain ⟨seed, created, blind⟩ :=
    Agent.exists_create_blind made (draws_perceptron drawn)
  refine ⟨seed, ?_, blind (obeys drawn dx dy denoteDx denoteDy)⟩
  rw [agent, written]
  exact created

theorem exists_agent_constantMover {move : Move} (dxUnit : move.dx.natAbs ≤ 1)
    (dyUnit : move.dy.natAbs ≤ 1) :
    ∃ made, agent (constantMover move.dx move.dy) = .ok made ∧
      made.Blind Binary64.IsFraction fun _ _ => move := by
  have sign {step : Int} (unit : step.natAbs ≤ 1) : step.sign = step := by
    obtain rfl | rfl | rfl : step = -1 ∨ step = 0 ∨ step = 1 := by omega
    all_goals rfl
  refine @exists_agent_obeys [0, 0, move.dx, 0, 0] [0, 0, move.dy, 0, 0] rfl rfl
    (by simp; omega) (by simp; omega) _ _
      fun drawn dx dy denoteDx denoteDy => ?_
  refine Network.Steers.obeys ?_
  have steers := steers_perceptron drawn dx dy denoteDx denoteDy
    fun position _ => ⟨by omega, by omega⟩
  simpa only [Int.mul_zero, Int.zero_add, sign dxUnit, sign dyUnit] using steers

theorem exists_agent_randomMover :
    ∃ made, agent randomMover = .ok made ∧
      made.Blind Binary64.IsGrain fun first second => ⟨first.drawnStep,
        second.drawnStep⟩ :=
  @exists_agent_obeys [0, 0, -1, 2, 0] [0, 0, -1, 0, 2] rfl rfl (by decide)
    (by decide) _ _ obeys_wanderer

/--
The seeds that do not look where they are.  Take any decisions before, at any
positions and with any draws, and then any row of positions with coordinates of
at most fifty-one bits, each with two draws.  With every stream that begins with
these draws the agent takes just these draws.  Each seed for a fixed move makes
its own move every time, whatever the draws from zero to one are.  The seed for
random steps, with draws that are multiples of the fifty-third negative power of
two, steps along the horizontal axis as its first draw says and along the
vertical axis as its second draw says: back below one quarter, forth from three
quarters on, and not at all in between.
-/
theorem blind_seeds :
    (∀ mover ∈ constantMovers, ∃ made, agent mover.1 = .ok made ∧
      made.Blind Binary64.IsFraction fun _ _ => mover.2) ∧
    ∃ made, agent randomMover = .ok made ∧
      made.Blind Binary64.IsGrain fun first second =>
        ⟨first.drawnStep, second.drawnStep⟩ := by
  refine ⟨?_, exists_agent_randomMover⟩
  have listed : ∀ mover ∈ constantMovers,
      mover.1 = constantMover mover.2.dx mover.2.dy ∧
        mover.2.dx.natAbs ≤ 1 ∧ mover.2.dy.natAbs ≤ 1 := by
    simp only [constantMovers, List.forall_mem_cons]
    refine ⟨?_, ?_, ?_, ?_, ?_, ?_, ?_, ?_, ?_, nofun⟩ <;>
      exact ⟨rfl, by decide, by decide⟩
  intro mover member
  obtain ⟨written, dxUnit, dyUnit⟩ := listed mover member
  rw [written]
  exact exists_agent_constantMover dxUnit dyUnit

/--
One grain below a quarter, at three quarters, at a quarter, and one grain below
three.
-/
def brink : List Binary64 :=
  [⟨0x3fcffffffffffffc⟩, ⟨0x3fe8000000000000⟩, ⟨0x3fd0000000000000⟩,
    ⟨0x3fe7ffffffffffff⟩]

theorem isGrain_of_brink : ∀ draw ∈ brink, draw.IsGrain := by
  have grain {draw : Binary64} (fraction : draw.IsFraction) (count : Nat)
      (counted : draw.quanta =
        (count * Binary64.quantaPerGrain : Nat)) : draw.IsGrain :=
    ⟨fraction, count, Binary64.value_eq_grains_iff.mpr counted⟩
  simp only [brink, List.forall_mem_cons]
  exact ⟨grain (by decide) 0x7ffffffffffff (by decide +kernel),
    grain (by decide) 0x18000000000000 (by decide +kernel),
    grain (by decide) 0x8000000000000 (by decide +kernel),
    grain (by decide) 0x17ffffffffffff (by decide +kernel), nofun⟩

/--
At the farthest corner and near the origin, after a decision somewhere else.
-/
theorem blind_seeds_brink :
    let corner : Position := ⟨0x8000000000000, -0x8000000000000⟩
    let source := Script.ofList brink
    corner.IsNear ∧ (∀ draw ∈ brink, draw.IsGrain) ∧
      ∃ mover wanderer movedOn wanderedOn,
        agent upLeftMover = .ok mover ∧ agent randomMover = .ok wanderer ∧
        ([corner, ⟨7, 0⟩].mapM Agent.decide).run
          (((Agent.decisions [⟨3, 4⟩]).run (mover, source)).2.1, source) =
            (.ok [⟨-1, -1⟩, ⟨-1, -1⟩], (movedOn, ⟨brink, 4⟩)) ∧
        ([corner, ⟨7, 0⟩].mapM Agent.decide).run
          (((Agent.decisions [⟨3, 4⟩]).run (wanderer, source)).2.1, source) =
            (.ok [⟨-1, 1⟩, ⟨0, 0⟩], (wanderedOn, ⟨brink, 4⟩)) := by
  intro corner source
  have near : corner.IsNear := by decide
  obtain ⟨movers, wanderer, created, blind⟩ := blind_seeds
  obtain ⟨mover, createdToo, still⟩ :=
    movers (upLeftMover, ⟨-1, -1⟩) (by simp [constantMovers])
  dsimp only at createdToo still
  let occasions : List Agent.Occasion :=
    [⟨corner, ⟨0x3fcffffffffffffc⟩, ⟨0x3fe8000000000000⟩⟩,
      ⟨⟨7, 0⟩, ⟨0x3fd0000000000000⟩, ⟨0x3fe7ffffffffffff⟩⟩]
  have admitted : ∀ occasion ∈ occasions, occasion.Admits Binary64.IsGrain := by
    have grains := isGrain_of_brink
    simp only [brink, List.forall_mem_cons] at grains
    obtain ⟨first, second, third, fourth, -⟩ := grains
    exact List.forall_mem_cons.mpr ⟨⟨near, first, second⟩,
      List.forall_mem_singleton.mpr ⟨by decide, third, fourth⟩⟩
  obtain ⟨movedOn, moves⟩ :=
    still source [⟨3, 4⟩] occasions fun occasion member =>
    have ⟨here, first, second⟩ := admitted occasion member
    ⟨here, first.1, second.1⟩
  obtain ⟨wanderedOn, steps⟩ := blind source [⟨3, 4⟩] occasions admitted
  have stepped : occasions.map (fun occasion =>
      Move.mk occasion.first.drawnStep occasion.second.drawnStep) =
        [⟨-1, 1⟩, ⟨0, 0⟩] := by
    simp only [occasions, List.map_cons, List.map_nil, Binary64.drawnStep_eq]
    decide +kernel
  rw [stepped] at steps
  exact ⟨near, isGrain_of_brink, mover, wanderer, movedOn, wanderedOn,
    createdToo, created, moves source (Script.take_ofList brink),
    steps source (Script.take_ofList brink)⟩

end Seeds

end NeuralGenome
