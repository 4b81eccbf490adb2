import NeuralGenome.Proofs.Agent.Alone
import NeuralGenome.Proofs.Genome.Canonical
import NeuralGenome.Proofs.Random.Draws

/-!
# Agents on a course

A course gives a move for each position.  A network steers a course when every
firing asks for the moves of the course, whatever was remembered and drawn, as
long as the position is near enough for exact arithmetic and the draws are
numbers from zero to one.  An agent with such a network stays on course: what it
was asked before, and how often it failed, makes no difference.

Of a network whose links lead back, a firing leaves signals that can be read off
from the first neuron to the last (`Network.Settles.emits`).
-/

namespace NeuralGenome

open ListPosition (Within)

/-! ## Positions and courses -/

namespace Position

/-- Coordinates small enough that two of them can be added exactly. -/
def IsNear (position : Position) : Prop :=
  position.x.natAbs ≤ 0x8000000000000 ∧ position.y.natAbs ≤ 0x8000000000000

instance : DecidablePred IsNear :=
  fun _ => inferInstanceAs (Decidable (_ ∧ _))

/-- The move of at most one step on each axis toward a target. -/
def stepTo (position target : Position) : Move :=
  ⟨(target.x - position.x).sign, (target.y - position.y).sign⟩

/-- How many such moves it takes. -/
def distance (position target : Position) : Nat :=
  max (target.x - position.x).natAbs (target.y - position.y).natAbs

/--
Where a coordinate is after a number of steps toward a target, of which it needs
no more than its distance.
-/
def approachAlong (coordinate target : Int) (steps : Nat) : Int :=
  coordinate + (target - coordinate).sign * min steps
    (target - coordinate).natAbs

/-- Where a position is after a number of steps toward a target. -/
def approach (position target : Position) (steps : Nat) : Position :=
  ⟨approachAlong position.x target.x steps,
    approachAlong position.y target.y steps⟩

section Along

variable (coordinate target : Int) (steps : Nat)

theorem approachAlong_zero :
    approachAlong coordinate target 0 = coordinate := by
  rw [approachAlong, Nat.zero_min, Int.natCast_zero, Int.mul_zero, Int.add_zero]

/-- After the first step it takes one step less. -/
theorem approachAlong_succ :
    approachAlong (coordinate + (target - coordinate).sign) target steps =
      approachAlong coordinate target (steps + 1) := by
  unfold approachAlong
  rcases Int.lt_trichotomy (target - coordinate) 0
    with negative | zero | positive
  · rw [Int.sign_eq_neg_one_of_neg negative]
    rcases Int.lt_or_eq_of_le (show target - (coordinate + -1) ≤ 0 by omega)
      with more | last
    · rw [Int.sign_eq_neg_one_of_neg more]
      omega
    · rw [last, Int.sign_zero, Int.zero_mul]
      omega
  · rw [zero, Int.sign_zero, Int.zero_mul, Int.add_zero, zero, Int.sign_zero,
      Int.zero_mul, Int.add_zero]
  · rw [Int.sign_eq_one_of_pos positive]
    rcases Int.lt_or_eq_of_le (show 0 ≤ target - (coordinate + 1) by omega)
      with more | last
    · rw [Int.sign_eq_one_of_pos more]
      omega
    · rw [← last, Int.sign_zero, Int.zero_mul]
      omega

theorem approachAlong_eq_iff :
    approachAlong coordinate target steps = target ↔
      (target - coordinate).natAbs ≤ steps := by
  unfold approachAlong
  rcases Int.lt_trichotomy (target - coordinate) 0
    with negative | zero | positive
  · rw [Int.sign_eq_neg_one_of_neg negative]
    omega
  · rw [zero, Int.sign_zero, Int.zero_mul]
    omega
  · rw [Int.sign_eq_one_of_pos positive]
    omega

end Along

variable {position target : Position}

/--
The target is reached after as many steps as it is away, and not left any more.
-/
theorem approach_eq_iff (steps : Nat) :
    position.approach target steps = target ↔
      position.distance target ≤ steps := by
  rcases target with ⟨x, y⟩
  rw [approach, Position.mk.injEq, approachAlong_eq_iff, approachAlong_eq_iff,
    distance, Nat.max_le]

theorem approach_zero (position target : Position) :
    position.approach target 0 = position := by
  rw [approach, approachAlong_zero, approachAlong_zero]

theorem approach_move (steps : Nat) :
    (position.move (position.stepTo target)).approach target steps =
      position.approach target (steps + 1) := by
  rw [approach, approach, Position.mk.injEq]
  exact ⟨approachAlong_succ _ _ _, approachAlong_succ _ _ _⟩

/-- Both coordinates of a near position have patterns that stand for them. -/
theorem IsNear.exists_patterns (near : position.IsNear) :
    ∃ x y, (Number.integer position.x).toBinary64 = .ok x ∧
      (Number.integer position.y).toBinary64 = .ok y ∧
      x.Denotes position.x ∧ y.Denotes position.y := by
  obtain ⟨x, convertsX, denotesX⟩ :=
    Binary64.exists_denotes (Nat.lt_of_le_of_lt near.1 (by decide))
  obtain ⟨y, convertsY, denotesY⟩ :=
    Binary64.exists_denotes (Nat.lt_of_le_of_lt near.2 (by decide))
  exact ⟨x, y, convertsX, convertsY, denotesX, denotesY⟩

/-- Between near positions a step stays near. -/
theorem IsNear.move (near : position.IsNear) (nearToo : target.IsNear) :
    (position.move (position.stepTo target)).IsNear := by
  have along {coordinate goal : Int}
      (first : coordinate.natAbs ≤ 0x8000000000000)
      (second : goal.natAbs ≤ 0x8000000000000) :
      (coordinate + (goal - coordinate).sign).natAbs ≤ 0x8000000000000 := by
    rcases Int.lt_trichotomy (goal - coordinate) 0
      with negative | zero | positive
    · rw [Int.sign_eq_neg_one_of_neg negative]
      omega
    · rwa [zero, Int.sign_zero, Int.add_zero]
    · rw [Int.sign_eq_one_of_pos positive]
      omega
  exact ⟨along near.1 nearToo.1, along near.2 nearToo.2⟩

end Position

/-! ## Networks that steer -/

namespace Network

variable {network : Network}

/--
A neuron whose links all lead back emits its signal of the signals that they
lead to.
-/
theorem Settles.emits {memory : Memory} {draws after : List Binary64}
    (settles : network.Settles memory draws after) {place : Nat}
    {neuron : LinkedNeuron} (found : network.neurons[place]? = some neuron)
    (back : ∀ link ∈ neuron.links, Within place link) :
    after.getD place .zero =
      neuron.signal memory (draws.getD (network.turn place) .zero)
        (neuron.links.map fun link => after.getD link.toNat .zero) := by
  have read : neuron.links.map (Memory.reading memory.signals after place) =
      neuron.links.map fun link => after.getD link.toNat .zero :=
    List.map_congr_left fun link member => if_pos (back link member).2
  rw [List.getD_eq_getElem?_getD, settles.signal place neuron found, read]
  rfl

/-- Wherever it is near, a network asks for the moves of a course. -/
def Steers (network : Network) (course : Position → Move) : Prop :=
  ∀ ⦃position : Position⦄ ⦃memory : Memory⦄ ⦃draws after : List Binary64⦄,
    position.IsNear →
    memory.x.Denotes position.x → memory.y.Denotes position.y →
    (∀ draw ∈ draws, draw.IsFraction) → network.Settles memory draws after →
      (after.getD network.dx.toNat .zero).unitStep = (course position).dx ∧
        (after.getD network.dy.toNat .zero).unitStep = (course position).dy

end Network

/-! ## Agents with such a network -/

namespace Agent

variable {Source : Type} [DrawSource Source] {network : Network}
  {state : Agent × Source}

/--
An agent with a network, whatever it remembers, that draws numbers from zero to
one.
-/
structure Runs (network : Network) (state : Agent × Source) : Prop where
  compiled : state.1.Compiled
  network : state.1.network = network
  fractions : DrawSource.Only Binary64.IsFraction state.2

theorem Runs.withMemory (runs : Runs network state) {memory : Memory}
    {source : Source} (sized : memory.signals.length = state.1.network.size)
    (fractions : DrawSource.Only Binary64.IsFraction source) :
    Runs network (state.1.withMemory memory, source) :=
  ⟨runs.compiled.withMemory sized, runs.network, fractions⟩

/--
At a position with patterns a decision is a firing, and then what the outputs
ask for.
-/
theorem Runs.exists_run_decide (runs : Runs network state) {position : Position}
    {x y : Binary64}
    (convertsX : (Number.integer position.x).toBinary64 = .ok x)
    (convertsY : (Number.integer position.y).toBinary64 = .ok y) :
    ∃ draws signals later, (∀ draw ∈ draws, draw.IsFraction) ∧
      network.Settles (state.1.memory.bound (x, y)) draws signals ∧
      Runs network later ∧
      (Agent.decide position).run state =
        (.ok ⟨(signals.getD network.dx.toNat .zero).unitStep,
          (signals.getD network.dy.toNat .zero).unitStep⟩, later) := by
  obtain ⟨agent, source⟩ := state
  obtain rfl : agent.network = network := runs.network
  obtain ⟨signals, settles, decided⟩ :=
    runs.compiled.exists_settles convertsX convertsY source
  let memory : Memory := { agent.memory.bound (x, y) with signals := signals }
  have sized : memory.signals.length = agent.network.size := settles.length
  have reached :=
    runs.withMemory sized (runs.fractions.later agent.network.draws)
  exact ⟨_, signals, _, runs.fractions agent.network.draws, settles, reached,
    decided⟩

/--
An agent goes on running its network after any decisions, also after those that
fail.
-/
theorem Runs.decisions (runs : Runs network state) (positions : List Position) :
    Runs network ((Agent.decisions positions).run state).2 := by
  obtain ⟨memory, count, sized, reached⟩ :=
    runs.compiled.exists_after_decisions positions state.2
  rw [reached]
  exact runs.withMemory sized (runs.fractions.later count)

variable {course : Position → Move} {position target : Position}

/-- At a near position the agent decides for the move of its course. -/
theorem Runs.exists_run_decide_course (runs : Runs network state)
    (steers : network.Steers course) (near : position.IsNear) :
    ∃ later,
      (Agent.decide position).run state = (.ok (course position), later) ∧
      Runs network later := by
  obtain ⟨x, y, convertsX, convertsY, denotesX, denotesY⟩ :=
    near.exists_patterns
  obtain ⟨draws, signals, later, fractions, settles, reached, ran⟩ :=
    runs.exists_run_decide convertsX convertsY
  obtain ⟨dx, dy⟩ := steers near denotesX denotesY fractions settles
  refine ⟨later, ?_, reached⟩
  rw [ran, dx, dy]

/--
On the course toward a target the path leads straight to the target and stays
there.
-/
theorem Runs.exists_run_walk (runs : Runs network state)
    (steers : network.Steers fun position => position.stepTo target)
    (nearToo : target.IsNear) (near : position.IsNear) (steps : Nat) :
    ∃ later, (Agent.walk position steps).run state =
        (.ok ((List.range (steps + 1)).map (position.approach target)), later) ∧
      Runs network later := by
  induction steps generalizing position state with
  | zero =>
      refine ⟨state, ?_, runs⟩
      show (_, _) = _
      rw [List.range_one, List.map_singleton, Position.approach_zero]
  | succ steps ih =>
      obtain ⟨middle, decided, between⟩ :=
        runs.exists_run_decide_course steers near
      obtain ⟨later, walked, reached⟩ := ih between (near.move nearToo)
      refine ⟨later, ?_, reached⟩
      have advanced : (Agent.advance position).run state =
          (.ok (position.move (position.stepTo target)), middle) := by
        rw [Agent.advance, Procedure.run_bind_of_ok decided, Procedure.run_pure]
      rw [Agent.walk] at walked ⊢
      rw [Procedure.trail, Procedure.run_bind_of_ok advanced,
        Procedure.run_bind_of_ok walked, Procedure.run_pure]
      have path : (List.range (steps + 1 + 1)).map (position.approach target) =
          position :: (List.range (steps + 1)).map
            ((position.move (position.stepTo target)).approach target) := by
        rw [List.range_succ_eq_map, List.map_cons, List.map_map,
          Position.approach_zero]
        exact congrArg _
          (List.map_congr_left fun step _ => (Position.approach_move step).symm)
      rw [path]

/-! ## New agents -/

/--
At each near position, whatever the agent was asked before, it decides for the
move of a course.
-/
def Follows (agent : Agent) (course : Position → Move) : Prop :=
  ∀ {Source : Type} [DrawSource Source] (source : Source),
    DrawSource.Only Binary64.IsFraction source →
      ∀ (earlier : List Position) (position : Position), position.IsNear →
        ((Agent.decide position).run
          ((Agent.decisions earlier).run (agent, source)).2).1 =
          .ok (course position)

/--
From each near position, whatever the agent was asked before, it walks straight
to a target and stays there.
-/
def Arrives (agent : Agent) (target : Position) : Prop :=
  ∀ {Source : Type} [DrawSource Source] (source : Source),
    DrawSource.Only Binary64.IsFraction source →
      ∀ (earlier : List Position) (position : Position), position.IsNear →
        ∀ steps : Nat,
          ((Agent.walk position steps).run
            ((Agent.decisions earlier).run (agent, source)).2).1 =
          .ok ((List.range (steps + 1)).map (position.approach target))

/-- A program whose network steers makes an agent that follows its course. -/
theorem exists_create_follows {program : Program} {network : Network}
    (made : program.compiled.network = .ok network) :
    ∃ agent, create (.ofProgram program) = .ok agent ∧
      (∀ {course : Position → Move}, network.Steers course →
        agent.Follows course) ∧
      ∀ {target : Position}, target.IsNear →
        (network.Steers fun position => position.stepTo target) →
          agent.Arrives target := by
  have created := create_of_network (Chromosome.program_ofProgram program) made
  have start {Source : Type} [DrawSource Source] {source : Source}
      (fractions : DrawSource.Only Binary64.IsFraction source) :
      Runs network
        ((⟨.ofProgram program, network, .initial network.size⟩ : Agent),
          source) :=
    ⟨Compiled.of_create created, rfl, fractions⟩
  refine ⟨_, created, ?_, ?_⟩
  · intro course steers Source _ source fractions earlier position near
    obtain ⟨later, decided, -⟩ :=
      ((start fractions).decisions earlier).exists_run_decide_course steers near
    rw [decided]
  · intro target nearToo steers Source _ source fractions earlier position
      near steps
    obtain ⟨later, walked, -⟩ :=
      ((start fractions).decisions earlier).exists_run_walk steers nearToo
        near steps
    rw [walked]

end Agent

end NeuralGenome
