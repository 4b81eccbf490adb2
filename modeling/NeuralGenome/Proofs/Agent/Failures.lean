import Mathlib.Data.List.Forall2
import NeuralGenome.Proofs.Agent.Alone

/-!
# Decisions that fail

An agent that was made from a chromosome fails to decide for one reason only, a
coordinate with no pattern near to it.  Such a failure can leave the first
coordinate bound and the second one not.  Nobody sees it: the next decision that
succeeds binds both coordinates before it fires, and one that fails fires
nothing.

So a row of decisions is told by those of them that succeed.  Along it two
agents are compared that differ in what is bound to the first input, one that is
asked at all positions, and one that is asked only where it can decide.
-/

namespace NeuralGenome

/-! ## Moves by a step -/

/-- A move by at most one step along each axis. -/
def Move.IsUnit (move : Move) : Prop :=
  ∀ component ∈ [move.dx, move.dy], component ∈ [-1, 0, 1]

theorem Binary64.unitStep_mem (signal : Binary64) :
    signal.unitStep ∈ [-1, 0, 1] := by
  have range := signal.unitStep_between
  simp only [List.mem_cons, List.not_mem_nil, or_false]
  omega

theorem Agent.isUnit_of_move {agent : Agent} {move : Move}
    (moves : agent.move = .ok move) : move.IsUnit := by
  have steps {output : Output} {step : Int}
      (asked : agent.step output = .ok step) : step ∈ [-1, 0, 1] := by
    obtain ⟨signal, -, returned⟩ := bind_eq_ok.mp asked
    cases returned
    exact signal.unitStep_mem
  obtain ⟨dx, first, rest⟩ := bind_eq_ok.mp moves
  obtain ⟨dy, second, returned⟩ := bind_eq_ok.mp rest
  cases returned
  exact List.forall_mem_cons.mpr
    ⟨steps first, List.forall_mem_singleton.mpr (steps second)⟩

/--
What a decision at a position comes to: a move by a step, or the one possible
fault.
-/
def Position.Answered (position : Position)
    (outcome : Except Fault Move) : Prop :=
  (position.HasPatterns → ∃ move : Move, outcome = .ok move ∧ move.IsUnit) ∧
    (¬ position.HasPatterns → outcome = .error .integerTooLarge)

/--
What is bound to the first input after decisions at some positions.  Each first
coordinate that has a pattern takes the place of the one before, whether or not
the second one has.
-/
def Binary64.rebound (signal : Binary64) (positions : List Position) :
    Binary64 :=
  positions.foldl
    (fun signal position => (ofInt? position.x).getD signal) signal

theorem Binary64.rebound_cons (signal : Binary64) (position : Position)
    (rest : List Position) :
    signal.rebound (position :: rest) =
      ((ofInt? position.x).getD signal).rebound rest :=
  List.foldl_cons

namespace Agent

/-- The agent with another signal bound to its first input. -/
def withX (agent : Agent) (x : Binary64) : Agent :=
  agent.withMemory { agent.memory with x := x }

theorem withX_self (agent : Agent) : agent.withX agent.memory.x = agent := rfl

variable {Source : Type} [DrawSource Source] {agent : Agent}
  {position : Position}

/-! ## One decision -/

/--
Without a pattern for both coordinates a decision fails, and it may have bound
the first.
-/
theorem run_decide_of_not_hasPatterns (agent : Agent)
    (absent : ¬ position.HasPatterns) (source : Source) :
    (decide position).run (agent, source) =
      (.error .integerTooLarge,
        (agent.withX ((Binary64.ofInt? position.x).getD agent.memory.x),
          source)) := by
  cases foundX : Binary64.ofInt? position.x with
  | none => exact run_decide_of_x_error (Number.toBinary64_of_none foundX)
  | some x =>
      cases foundY : Binary64.ofInt? position.y with
      | none =>
          exact run_decide_of_y_error (Number.toBinary64_of_some foundX)
            (Number.toBinary64_of_none foundY)
      | some y =>
          refine absurd ⟨?_, ?_⟩ absent
          · rw [foundX]
            rfl
          · rw [foundY]
            rfl

/--
With a pattern for both coordinates a compiled agent decides for a move by a
step and takes one draw for each of its random neurons.  The move, and all that
the agent remembers afterwards, do not depend on what was bound to the first
input before.
-/
theorem Compiled.exists_run_decide (compiled : agent.Compiled)
    (patterns : position.HasPatterns) (source : Source) :
    ∃ move memory, move.IsUnit ∧ memory.signals.length = agent.network.size ∧
      Binary64.ofInt? position.x = some memory.x ∧
      ∀ x, (decide position).run (agent.withX x, source) =
        (.ok move, (agent.withMemory memory,
          (DrawSource.take agent.network.draws source).2)) := by
  obtain ⟨x, foundX⟩ := Option.isSome_iff_exists.mp patterns.1
  obtain ⟨y, foundY⟩ := Option.isSome_iff_exists.mp patterns.2
  have convertsX := Number.toBinary64_of_some foundX
  have convertsY := Number.toBinary64_of_some foundY
  obtain ⟨signals, settles, -⟩ :=
    compiled.exists_settles convertsX convertsY source
  let memory : Memory := { agent.memory.bound (x, y) with signals := signals }
  have reached : (agent.withMemory memory).Compiled :=
    compiled.withMemory settles.length
  refine ⟨_, memory, isUnit_of_move reached.move_eq, settles.length, foundX,
    fun before => ?_⟩
  have rebound : (agent.withX before).Compiled :=
    compiled.withMemory compiled.sized
  obtain ⟨signals', settles', decided⟩ :=
    rebound.exists_settles convertsX convertsY source
  -- what was bound before is in neither of the equations
  obtain rfl := settles'.unique rebound.within.1 settles
  exact decided

/--
A compiled agent is compiled after any decision, also after one that fails.
-/
theorem Compiled.decide (compiled : agent.Compiled) (position : Position)
    (source : Source) :
    ((Agent.decide position).run (agent, source)).2.1.Compiled := by
  obtain ⟨memory, count, sized, reached⟩ :=
    compiled.exists_after_decide position source
  rw [reached]
  exact compiled.withMemory sized

/-! ## Decisions in a row -/

theorem run_decisions_cons {outcome : Except Fault Move} {rest : List Position}
    {outcomes : List (Except Fault Move)} {before middle after : Agent × Source}
    (first : (decide position).run before = (outcome, middle))
    (others : (decisions rest).run middle = (.ok outcomes, after)) :
    (decisions (position :: rest)).run before =
      (.ok (outcome :: outcomes), after) := by
  have attempted := (decide position).run_attempt before
  rw [first] at attempted
  rw [decisions] at others
  rw [decisions, List.map_cons, Procedure.attemptAll,
    Procedure.run_bind_of_ok attempted, Procedure.run_bind_of_ok others,
    Procedure.run_pure]

/--
A row of decisions beside the row of those that succeed, by an agent with
anything bound to its first input and by the agent itself.
-/
theorem Compiled.exists_run_decisions (compiled : agent.Compiled)
    (positions : List Position) (x : Binary64) (source : Source) :
    ∃ outcomes moves later,
      (decisions positions).run (agent.withX x, source) =
        (.ok outcomes, (later.withX (x.rebound positions),
          (DrawSource.take (moves.length * agent.network.draws) source).2)) ∧
      List.Forall₂ Position.Answered positions outcomes ∧
      ((positions.filter (·.HasPatterns)).mapM Agent.decide).run
        (agent, source) = (.ok moves, (later,
          (DrawSource.take (moves.length * agent.network.draws) source).2)) ∧
      moves = outcomes.filterMap Except.toOption := by
  -- over the positions, with anything bound to the first input and any source
  induction positions generalizing agent x source with
  | nil =>
      refine ⟨[], [], agent, ?_, .nil, ?_, rfl⟩
      · rw [List.length_nil, Nat.zero_mul]
        rfl
      · rw [List.length_nil, Nat.zero_mul]
        rfl
  | cons position rest ih =>
      rw [Binary64.rebound_cons]
      by_cases patterns : position.HasPatterns
      · obtain ⟨move, memory, unit, sized, bound, decided⟩ :=
          compiled.exists_run_decide patterns source
        obtain ⟨outcomes, moves, later, run, answered, alone, same⟩ :=
          ih (compiled.withMemory sized) memory.x
            (DrawSource.take agent.network.draws source).2
        have drawn :
            (DrawSource.take ((move :: moves).length * agent.network.draws)
              source).2 =
            (DrawSource.take (moves.length * agent.network.draws)
              (DrawSource.take agent.network.draws source).2).2 := by
          rw [List.length_cons, Nat.succ_mul, Nat.add_comm, DrawSource.take_add]
        have kept : (position :: rest).filter (·.HasPatterns) =
            position :: rest.filter (·.HasPatterns) :=
          List.filter_cons_of_pos (decide_eq_true patterns)
        refine ⟨.ok move :: outcomes, move :: moves, later, ?_, ?_, ?_, ?_⟩
        · rw [bound, drawn]
          exact run_decisions_cons (decided x) run
        · exact .cons ⟨fun _ => ⟨move, rfl, unit⟩, fun absent =>
            absurd patterns absent⟩ answered
        · rw [kept, drawn]
          exact Procedure.run_mapM_cons_eq_ok.mpr
            ⟨move, moves, _, decided agent.memory.x, alone, rfl⟩
        · rw [same]
          rfl
      · obtain ⟨outcomes, moves, later, run, answered, alone, same⟩ :=
          ih compiled ((Binary64.ofInt? position.x).getD x) source
        have failed :=
          run_decide_of_not_hasPatterns (agent.withX x) patterns source
        have dropped : (position :: rest).filter (·.HasPatterns) =
            rest.filter (·.HasPatterns) :=
          List.filter_cons_of_neg fun present =>
            patterns (of_decide_eq_true present)
        refine ⟨.error .integerTooLarge :: outcomes, moves, later, ?_, ?_,
          ?_, same⟩
        · exact run_decisions_cons failed run
        · exact .cons ⟨fun present => absurd present patterns, fun _ => rfl⟩
            answered
        · rw [dropped]
          exact alone

/-! ## Journeys -/

/--
An agent on its way from a place, with the number of its steps, where they have
led, and the agent and the source as they are now.  Between two steps it may be
asked to decide anywhere, also where it fails.
-/
inductive Journey (agent : Agent) (source : Source) (origin : Position) :
    Nat → Position → Agent × Source → Prop where
  | start : Journey agent source origin 0 origin (agent, source)
  | step {steps : Nat} {place next : Position} {before after : Agent × Source}
      (earlier : Journey agent source origin steps place before)
      (advanced : (advance place).run before = (.ok next, after)) :
      Journey agent source origin (steps + 1) next after
  | aside {steps : Nat} {place : Position} {before : Agent × Source}
      (earlier : Journey agent source origin steps place before)
      (elsewhere : Position) :
      Journey agent source origin steps place
        ((Agent.decide elsewhere).run before).2

/--
A step succeeds at a place with patterns and leads no further than one along
each axis.
-/
theorem Compiled.exists_run_advance (compiled : agent.Compiled)
    (patterns : position.HasPatterns) (source : Source) :
    ∃ next after, (advance position).run (agent, source) = (.ok next, after) ∧
      after.1.Compiled ∧ (next.x - position.x).natAbs ≤ 1 ∧
        (next.y - position.y).natAbs ≤ 1 := by
  obtain ⟨move, memory, unit, sized, -, decided⟩ :=
    compiled.exists_run_decide patterns source
  have here := decided agent.memory.x
  rw [withX_self] at here
  simp only [Move.IsUnit, List.mem_cons, List.not_mem_nil, or_false,
    forall_eq_or_imp, forall_eq] at unit
  refine ⟨position.move move,
    (agent.withMemory memory, (DrawSource.take agent.network.draws source).2),
    ?_, compiled.withMemory sized, ?_, ?_⟩
  · rw [advance, Procedure.run_bind_of_ok here, Procedure.run_pure]
  · simp only [Position.move]
    omega
  · simp only [Position.move]
    omega

/-- A step succeeds nowhere else. -/
theorem hasPatterns_of_run_advance {before after : Agent × Source}
    {next : Position}
    (advanced : (advance position).run before = (.ok next, after)) :
    position.HasPatterns := by
  obtain ⟨agent, source⟩ := before
  by_contra absent
  rw [advance, Procedure.run_bind_of_error
    (run_decide_of_not_hasPatterns agent absent source)] at advanced
  cases advanced

/--
On a journey an agent stays compiled and gets no further than it has made steps.
-/
theorem Journey.near {agent : Agent} {source : Source} {origin place : Position}
    {steps : Nat} {state : Agent × Source}
    (journey : Journey agent source origin steps place state)
    (compiled : agent.Compiled) :
    state.1.Compiled ∧ (place.x - origin.x).natAbs ≤ steps ∧
      (place.y - origin.y).natAbs ≤ steps := by
  induction journey with
  | start => exact ⟨compiled, by omega, by omega⟩
  | @step _ _ _ before _ earlier advanced ih =>
      obtain ⟨walker, source⟩ := before
      obtain ⟨between, x, y⟩ := ih
      obtain ⟨_, _, same, reached, dx, dy⟩ :=
        between.exists_run_advance (hasPatterns_of_run_advance advanced) source
      cases advanced.symm.trans same
      exact ⟨reached, by omega, by omega⟩
  | @aside _ _ before earlier elsewhere ih =>
      obtain ⟨walker, source⟩ := before
      have between : walker.Compiled := ih.1
      exact ⟨between.decide elsewhere source, ih.2⟩

/--
An agent that was made from a chromosome decides at all positions whose
coordinates have patterns, for a move by a step, and fails at all others.  With
those left out it decides for the same moves, takes the same draws and ends with
the same signals; what is bound to its first input is all that can be different.
So in a number of steps it gets no further than that number along each axis, and
it can go on unless a coordinate has no pattern.
-/
theorem failures_leave_no_trace {chromosome : Chromosome} {agent : Agent}
    (made : create chromosome = .ok agent) (source : Source) :
    (∀ positions : List Position, ∃ outcomes moves later,
      (decisions positions).run (agent, source) =
        (.ok outcomes, (later.withX (agent.memory.x.rebound positions),
          (DrawSource.take (moves.length * agent.network.draws) source).2)) ∧
      List.Forall₂ Position.Answered positions outcomes ∧
      ((positions.filter (·.HasPatterns)).mapM Agent.decide).run
        (agent, source) = (.ok moves, (later,
          (DrawSource.take (moves.length * agent.network.draws) source).2)) ∧
      moves = outcomes.filterMap Except.toOption) ∧
      ∀ (origin place : Position) (steps : Nat) (state : Agent × Source),
        Journey agent source origin steps place state →
          (place.x - origin.x).natAbs ≤ steps ∧
            (place.y - origin.y).natAbs ≤ steps ∧
            (place.HasPatterns ↔
              ∃ next after, (advance place).run state = (.ok next, after)) := by
  have compiled := Compiled.of_create made
  constructor
  · intro positions
    exact compiled.exists_run_decisions positions agent.memory.x source
  · intro origin place steps state journey
    obtain ⟨reached, x, y⟩ := journey.near compiled
    refine ⟨x, y, fun patterns => ?_, fun ⟨_, _, advanced⟩ =>
      hasPatterns_of_run_advance advanced⟩
    obtain ⟨next, after, advanced, -⟩ :=
      reached.exists_run_advance patterns state.2
    exact ⟨next, after, advanced⟩

/--
The agent of a program whose horizontal answer is no number, as it adds up both
infinities, and whose vertical one is infinite.
-/
def unruly : Agent where
  chromosome := .ofProgram [.create (.fixed (.infinity false)),
    .create (.fixed (.infinity true)), .create .sum, .readFrom .two,
    .readFrom .minusTwo, .readFrom .zero, .create .random,
    .assign .dx .minusTwo, .assign .dy .two]
  network :=
    { neurons :=
        [⟨⟨.inputX, .zero⟩, []⟩, ⟨⟨.inputY, .zero⟩, []⟩,
          ⟨⟨.fixed, .infinity false⟩, []⟩, ⟨⟨.fixed, .infinity true⟩, []⟩,
          ⟨⟨.sum, .zero⟩, [2, 3, 0]⟩, ⟨⟨.random, .zero⟩, []⟩]
      dx := 4
      dy := 2 }
  memory := .initial 6

/-- The first power of two beyond all patterns. -/
def beyond : Int :=
  Nat.pow 2 1024

/-- Places to decide at, the first and the fourth of which have patterns. -/
def errands : List Position :=
  [⟨3, 2⟩, ⟨-1, beyond⟩, ⟨beyond, 0⟩, ⟨0, -4⟩, ⟨2, -beyond⟩]

theorem failures_leave_no_trace_unruly :
    let source := Script.ofList [.half, .zero]
    create unruly.chromosome = .ok unruly ∧
      (∃ outcomes moves later,
        (decisions errands).run (unruly, source) =
          (.ok outcomes, (later.withX .two,
            (DrawSource.take (moves.length * unruly.network.draws) source).2)) ∧
        List.Forall₂ Position.Answered errands outcomes ∧
        ([⟨3, 2⟩, ⟨0, -4⟩].mapM Agent.decide).run (unruly, source) =
          (.ok moves, (later,
            (DrawSource.take (moves.length * unruly.network.draws) source).2)) ∧
        moves = outcomes.filterMap Except.toOption) ∧
      ∀ (place : Position) (steps : Nat) (state : Agent × Script),
        Journey unruly source ⟨3, 2⟩ steps place state →
          (place.x - 3).natAbs ≤ steps ∧ (place.y - 2).natAbs ≤ steps ∧
            (place.HasPatterns ↔
              ∃ next after, (advance place).run state = (.ok next, after)) := by
  intro source
  have made : create unruly.chromosome = .ok unruly := rfl
  have ⟨alike, near⟩ := failures_leave_no_trace made source
  refine ⟨made, ?_, fun place steps state => near ⟨3, 2⟩ place steps state⟩
  have last : unruly.memory.x.rebound errands = .two := by decide +kernel
  have left : errands.filter (·.HasPatterns) =
      [⟨3, 2⟩, ⟨0, -4⟩] := by decide +kernel
  have decided := alike errands
  rwa [last, left] at decided

end Agent

end NeuralGenome
