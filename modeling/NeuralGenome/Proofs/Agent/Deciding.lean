import NeuralGenome.Agent.Basic
import NeuralGenome.Proofs.Network.Series

/-!
# Deciding moves

A decision binds the position to the inputs, fires the network once, and reads
the move off the two outputs.  It fails before it fires where a coordinate has
no pattern near to it; everywhere else it is the firing, and then what the
outputs say.  `Agent.decisions` are the decisions of an agent at any row of
positions, where one that fails is passed over.

A procedure *respects* a relation between states when it cannot tell related
states apart: it ends alike from both, and in related states again.  What
respects a relation can be put together from parts that do.
-/

namespace NeuralGenome

namespace Procedure

variable {State Part Value Result : Type}

/-- A procedure on a part does to the part what it does alone. -/
theorem run_within {part : State → Part} {update : Part → State → State}
    {procedure : Procedure Part Value} {state : State}
    {outcome : Except Fault Value} {after : Part}
    (done : procedure.run (part state) = (outcome, after)) :
    (procedure.within part update).run state =
      (outcome, update after state) := by
  show (procedure.run (part state)).map id (update · state) = _
  rw [done]
  rfl

/-- Run procedures in a row, going on after those that fail. -/
def attemptAll :
    List (Procedure State Value) → Procedure State (List (Except Fault Value))
  | [] => return []
  | first :: rest => do
      let outcome ← first.attempt
      return outcome :: (← attemptAll rest)

/-- Procedures that are attempted in a row always end. -/
theorem exists_run_attemptAll (procedures : List (Procedure State Value))
    (state : State) :
    ∃ outcomes after, (attemptAll procedures).run state =
      (.ok outcomes, after) := by
  induction procedures generalizing state with
  | nil => exact ⟨[], state, rfl⟩
  | cons first rest ih =>
      obtain ⟨outcomes, after, later⟩ := ih (first.run state).2
      refine ⟨(first.run state).1 :: outcomes, after, ?_⟩
      rw [attemptAll, run_bind_of_ok (first.run_attempt state),
        run_bind_of_ok later, run_pure]

/--
Where the first procedure ends, whether or not it failed, the others go on.
-/
theorem after_attemptAll_cons (first : Procedure State Value)
    (rest : List (Procedure State Value)) (state : State) :
    ((attemptAll (first :: rest)).run state).2 =
      ((attemptAll rest).run (first.run state).2).2 := by
  obtain ⟨outcomes, after, later⟩ :=
    exists_run_attemptAll rest (first.run state).2
  rw [attemptAll, run_bind_of_ok (first.run_attempt state),
    run_bind_of_ok later, later, run_pure]

/-- A procedure ends alike from related states, and in related states again. -/
def Respects (relation : State → State → Prop)
    (procedure : Procedure State Value) : Prop :=
  ∀ left right, relation left right →
    (procedure.run left).1 = (procedure.run right).1 ∧
      relation (procedure.run left).2 (procedure.run right).2

namespace Respects

variable {relation : State → State → Prop}

theorem pure (value : Value) :
    Respects relation (pure value : Procedure State Value) :=
  fun _ _ related => ⟨rfl, related⟩

theorem bind {first : Procedure State Value}
    {next : Value → Procedure State Result} (start : Respects relation first)
    (rest : ∀ value, Respects relation (next value)) :
    Respects relation (first >>= next) := by
  intro left right related
  obtain ⟨same, reached⟩ := start left right related
  rw [run_bind, run_bind]
  rcases leftward : first.run left with ⟨outcome | value, left'⟩ <;>
    rcases rightward : first.run right with ⟨outcome' | value', right'⟩ <;>
    rw [leftward, rightward] at same reached <;> cases same
  · exact ⟨rfl, reached⟩
  · exact rest value left' right' reached

theorem attempt {procedure : Procedure State Value}
    (respects : Respects relation procedure) :
    Respects relation procedure.attempt := by
  intro left right related
  obtain ⟨same, reached⟩ := respects left right related
  rw [run_attempt, run_attempt, same]
  exact ⟨rfl, reached⟩

theorem attemptAll {procedures : List (Procedure State Value)}
    (respects : ∀ procedure ∈ procedures, Respects relation procedure) :
    Respects relation (attemptAll procedures) := by
  induction procedures with
  | nil => exact .pure []
  | cons first rest ih =>
      obtain ⟨once, later⟩ := List.forall_mem_cons.mp respects
      exact once.attempt.bind fun outcome =>
        (ih later).bind fun outcomes => .pure (outcome :: outcomes)

/-- A row of steps respects what each step does. -/
theorem trail {step : Value → Procedure State Value}
    (respects : ∀ place, Respects relation (step place)) (place : Value)
    (steps : Nat) : Respects relation (trail step place steps) := by
  induction steps generalizing place with
  | zero => exact .pure [place]
  | succ steps ih =>
      exact (respects place).bind fun next =>
        (ih next).bind fun places => .pure (place :: places)

end Respects

end Procedure

/-! ## Binding a position -/

namespace Memory

variable {x y : Number} {first second : Binary64} {fault : Fault}

theorem run_bind_of_ok (convertsX : x.toBinary64 = .ok first)
    (convertsY : y.toBinary64 = .ok second) (memory : Memory) :
    (Memory.bind x y).run memory = (.ok (), memory.bound (first, second)) := by
  rw [Memory.bind, convertsX, convertsY]
  rfl

theorem run_bind_of_x_error (failed : x.toBinary64 = .error fault)
    (memory : Memory) :
    (Memory.bind x y).run memory = (.error fault, memory) := by
  rw [Memory.bind, failed]
  rfl

/-- A second number that cannot be bound leaves the first one bound. -/
theorem run_bind_of_y_error (convertsX : x.toBinary64 = .ok first)
    (failed : y.toBinary64 = .error fault) (memory : Memory) :
    (Memory.bind x y).run memory =
      (.error fault, { memory with x := first }) := by
  rw [Memory.bind, convertsX, failed]
  rfl

end Memory

/-! ## One decision -/

namespace Agent

/-- The agent with another memory. -/
def withMemory (agent : Agent) (memory : Memory) : Agent :=
  { agent with memory := memory }

/-- The move that an agent's outputs ask for. -/
def move (agent : Agent) : Except Fault Move := do
  let dx ← agent.step .dx
  let dy ← agent.step .dy
  return ⟨dx, dy⟩

variable {Source : Type} {agent : Agent} {source : Source}

theorem run_remember {Value : Type}
    {procedure : Procedure (Activity Source) Value}
    {after : Activity Source} {outcome : Except Fault Value}
    (done : procedure.run ⟨agent.memory, source⟩ = (outcome, after)) :
    (remember procedure).run (agent, source) =
      (outcome, (agent.withMemory after.memory, after.source)) :=
  Procedure.run_within done

/-- The outputs are asked in order, and the first that fails is the fault. -/
theorem run_move (agent : Agent) (source : Source) :
    (do let dx ← Procedure.ofExcept (agent.step .dx)
        let dy ← Procedure.ofExcept (agent.step .dy)
        return ⟨dx, dy⟩ : Procedure (Agent × Source) Move).run (agent, source) =
      (agent.move, (agent, source)) := by
  rw [move]
  rcases agent.step .dx with fault | dx
  · rfl
  · rcases agent.step .dy with fault | dy <;> rfl

variable [DrawSource Source] {position : Position} {fault : Fault}

/-- Nothing has happened when a decision fails at the first coordinate. -/
theorem run_decide_of_x_error
    (failed : (Number.integer position.x).toBinary64 = .error fault) :
    (Agent.decide position).run (agent, source) =
      (.error fault, (agent, source)) := by
  rw [Agent.decide, Procedure.run_bind_of_ok (Procedure.run_get _),
    Procedure.run_bind_of_error
      (run_remember (Procedure.run_within
        (Memory.run_bind_of_x_error failed agent.memory)))]
  rfl

/-- The first coordinate is bound when a decision fails at the second one. -/
theorem run_decide_of_y_error {x : Binary64}
    (converts : (Number.integer position.x).toBinary64 = .ok x)
    (failed : (Number.integer position.y).toBinary64 = .error fault) :
    (Agent.decide position).run (agent, source) =
      (.error fault, (agent.withMemory { agent.memory with
        x := x }, source)) := by
  rw [Agent.decide, Procedure.run_bind_of_ok (Procedure.run_get _),
    Procedure.run_bind_of_error (run_remember (Procedure.run_within
      (Memory.run_bind_of_y_error converts failed agent.memory)))]

/--
At a position with two patterns, a decision is a firing and what the outputs
say.
-/
theorem run_decide_of_fireOn {x y : Binary64} {after : Activity Source}
    (convertsX : (Number.integer position.x).toBinary64 = .ok x)
    (convertsY : (Number.integer position.y).toBinary64 = .ok y)
    (fires : (agent.network.fireOn (x, y)).run ⟨agent.memory, source⟩ =
      (.ok (), after)) :
    (Agent.decide position).run (agent, source) =
      ((agent.withMemory after.memory).move,
        (agent.withMemory after.memory, after.source)) := by
  rw [Network.run_fireOn] at fires
  rw [Agent.decide, Procedure.run_bind_of_ok (Procedure.run_get _),
    Procedure.run_bind_of_ok (run_remember (Procedure.run_within
      (Memory.run_bind_of_ok convertsX convertsY agent.memory))),
    Procedure.run_bind_of_ok (run_remember fires),
    Procedure.run_bind_of_ok (Procedure.run_get _)]
  exact run_move (agent.withMemory after.memory) after.source

/--
The decisions of an agent at some positions, with the faults of those that fail.
-/
def decisions (positions : List Position) :
    Procedure (Agent × Source) (List (Except Fault Move)) :=
  Procedure.attemptAll (positions.map Agent.decide)

end Agent

end NeuralGenome
