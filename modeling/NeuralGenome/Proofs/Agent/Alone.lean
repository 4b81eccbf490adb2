import NeuralGenome.Proofs.Agent.Creation
import NeuralGenome.Proofs.Agent.Deciding
import NeuralGenome.Random.Script

/-!
# What an agent does with given draws

A decision of a compiled agent takes one draw for each of its random neurons.
Its result depends on these draws alone and not on the source that they come
from, because the equations of a firing have one solution.

`Agent.Decides` and `Agent.Alone` therefore speak of all sources at once: an
agent makes given moves with every stream that begins with given draws.
-/

namespace NeuralGenome

open ListPosition (Within)

/-- As long as a script does not start over, it gives its draws in order. -/
theorem Script.take_eq_take_drop (draws : List Binary64) {used count : Nat}
    (near : used + count ≤ draws.length) :
    (DrawSource.take count (⟨draws, used⟩ : Script)).1 =
      (draws.drop used).take count := by
  induction count generalizing used with
  | zero => rfl
  | succ count ih =>
      have inside : used < draws.length := by omega
      have here : (⟨draws, used⟩ : Script).current = draws[used] := by
        rw [current, Nat.mod_eq_of_lt inside, List.getD_eq_getElem?_getD,
          List.getElem?_eq_getElem inside]
        rfl
      have later : used + 1 + count ≤ draws.length := by omega
      rw [DrawSource.take_succ, List.drop_eq_getElem_cons inside,
        List.take_succ_cons, ← ih later]
      exact congrArg (· :: _) here

/-- A script begins with the draws that it was made of. -/
theorem Script.take_ofList (draws : List Binary64) :
    (DrawSource.take draws.length (Script.ofList draws)).1 = draws := by
  rw [ofList, take_eq_take_drop draws (Nat.le_of_eq (Nat.zero_add _)),
    List.drop_zero, List.take_length]

/-- Whether both coordinates have a pattern near to them. -/
def Position.HasPatterns (position : Position) : Prop :=
  (Binary64.ofInt? position.x).isSome ∧ (Binary64.ofInt? position.y).isSome

instance (position : Position) : Decidable position.HasPatterns :=
  inferInstanceAs (Decidable (_ ∧ _))

theorem Number.exists_toBinary64 {value : Int}
    (near : (Binary64.ofInt? value).isSome) :
    ∃ pattern, (Number.integer value).toBinary64 = .ok pattern := by
  obtain ⟨pattern, found⟩ := Option.isSome_iff_exists.mp near
  exact ⟨pattern, toBinary64_of_some found⟩

/-- The move that the outputs of a network ask for with given signals. -/
def Network.asked (network : Network) (signals : List Binary64) : Move :=
  ⟨(signals.getD network.dx.toNat .zero).unitStep,
    (signals.getD network.dy.toNat .zero).unitStep⟩

namespace Agent

/-! ## Compiled agents -/

/--
An agent that was compiled from its chromosome and may have decided since.
-/
structure Compiled (agent : Agent) : Prop where
  network : ∃ program, agent.chromosome.program = .ok program ∧
    program.network = .ok agent.network
  sized : agent.memory.signals.length = agent.network.size

namespace Compiled

variable {agent : Agent}

theorem of_create {chromosome : Chromosome}
    (made : create chromosome = .ok agent) : agent.Compiled := by
  obtain ⟨program, decoded, rest⟩ := bind_eq_ok.mp made
  obtain ⟨network, compiles, returned⟩ := bind_eq_ok.mp rest
  cases returned
  exact ⟨⟨program, decoded, compiles⟩,
    Memory.length_signals_initial network.size⟩

theorem withMemory (compiled : agent.Compiled) {memory : Memory}
    (sized : memory.signals.length = agent.network.size) :
    (agent.withMemory memory).Compiled :=
  ⟨compiled.network, sized⟩

/-- All links and both outputs of a compiled agent name neurons. -/
theorem within (compiled : agent.Compiled) :
    agent.network.Grounded ∧
      ∀ output, Within agent.network.size (agent.network.output output) := by
  obtain ⟨program, -, compiles⟩ := compiled.network
  rw [program.network_eq] at compiles
  obtain ⟨-, links, outputs⟩ := program.sound_compiled.within_network compiles
  exact ⟨fun neuron member _ => links neuron member, outputs⟩

/--
The outputs of a compiled agent ask for the move that can be read off its
signals.
-/
theorem move_eq (compiled : agent.Compiled) :
    agent.move = .ok (agent.network.asked agent.memory.signals) := by
  have answers (output : Output) : agent.step output =
      .ok (agent.memory.signals.getD (agent.network.output output).toNat
        .zero).unitStep := by
    have within := compiled.within.2 output
    rw [← compiled.sized] at within
    rw [step, Network.answer, Memory.signal_of_within within]
    rfl
  rw [move, answers, answers]
  rfl

variable {Source : Type} [DrawSource Source] {position : Position}

/--
At a position with patterns a decision is a firing, and the move that the new
signals ask for.
-/
theorem exists_settles (compiled : agent.Compiled) {x y : Binary64}
    (convertsX : (Number.integer position.x).toBinary64 = .ok x)
    (convertsY : (Number.integer position.y).toBinary64 = .ok y)
    (source : Source) :
    ∃ signals,
      agent.network.Settles (agent.memory.bound (x, y))
        (DrawSource.take agent.network.draws source).1 signals ∧
      (Agent.decide position).run (agent, source) =
        (.ok (agent.network.asked signals),
          (agent.withMemory { agent.memory.bound (x, y) with
            signals := signals },
            (DrawSource.take agent.network.draws source).2)) := by
  obtain ⟨signals, fires, settles⟩ := agent.network.run_fire
    (agent.memory.bound (x, y)) source compiled.sized compiled.within.1
  let memory : Memory := { agent.memory.bound (x, y) with signals := signals }
  have reached : (agent.withMemory memory).Compiled :=
    compiled.withMemory settles.length
  refine ⟨signals, settles, ?_⟩
  rw [run_decide_of_fireOn convertsX convertsY
    ((agent.network.run_fireOn (x, y) agent.memory source).trans fires)]
  exact congrArg (·, _) reached.move_eq

/--
A decision, also one that fails, takes some draws and changes what is
remembered.
-/
theorem exists_after_decide (compiled : agent.Compiled) (position : Position)
    (source : Source) :
    ∃ memory count, memory.signals.length = agent.network.size ∧
      ((Agent.decide position).run (agent, source)).2 =
        (agent.withMemory memory, (DrawSource.take count source).2) := by
  cases convertsX : (Number.integer position.x).toBinary64 with
  | error fault =>
      exact ⟨agent.memory, 0, compiled.sized,
        by rw [run_decide_of_x_error convertsX]; rfl⟩
  | ok x =>
      cases convertsY : (Number.integer position.y).toBinary64 with
      | error fault =>
          exact ⟨{ agent.memory with x := x }, 0, compiled.sized, by
            rw [run_decide_of_y_error convertsX convertsY]
            rfl⟩
      | ok y =>
          obtain ⟨signals, settles, decided⟩ :=
            compiled.exists_settles convertsX convertsY source
          exact ⟨_, _, settles.length, by rw [decided]⟩

/-- So do decisions in a row. -/
theorem exists_after_decisions (compiled : agent.Compiled)
    (positions : List Position) (source : Source) :
    ∃ memory count, memory.signals.length = agent.network.size ∧
      ((Agent.decisions positions).run (agent, source)).2 =
        (agent.withMemory memory, (DrawSource.take count source).2) := by
  induction positions generalizing agent source with
  | nil => exact ⟨agent.memory, 0, compiled.sized, rfl⟩
  | cons position rest ih =>
      obtain ⟨memory, count, sized, first⟩ :=
        compiled.exists_after_decide position source
      obtain ⟨memory', count', sized', others⟩ :=
        ih (compiled.withMemory sized) (DrawSource.take count source).2
      refine ⟨memory', count + count', sized', ?_⟩
      rw [Agent.decisions] at others
      rw [Agent.decisions, List.map_cons, Procedure.after_attemptAll_cons,
        first, others, DrawSource.take_add]
      rfl

end Compiled

/-! ## An agent alone -/

/--
With every stream that begins with given draws an agent decides for a given
move, takes just these draws, and becomes a given agent.
-/
def Decides (agent : Agent) (position : Position) (draws : List Binary64)
    (move : Move) (later : Agent) : Prop :=
  ∀ {Source : Type} [DrawSource Source] (stream : Source),
    (DrawSource.take draws.length stream).1 = draws →
      (Agent.decide position).run (agent, stream) =
        (.ok move, (later, (DrawSource.take draws.length stream).2))

/-- The same for moves in a row. -/
def Alone (agent : Agent) (positions : List Position) (draws : List Binary64)
    (moves : List Move) (later : Agent) : Prop :=
  ∀ {Source : Type} [DrawSource Source] (stream : Source),
    (DrawSource.take draws.length stream).1 = draws →
      (positions.mapM Agent.decide).run (agent, stream) =
        (.ok moves, (later, (DrawSource.take draws.length stream).2))

/--
A compiled agent that is given one draw for each of its random neurons decides
for the move that its new signals ask for, whatever source the draws come from.
-/
theorem Compiled.exists_settles_decides {agent : Agent}
    (compiled : agent.Compiled) {position : Position} {x y : Binary64}
    (convertsX : (Number.integer position.x).toBinary64 = .ok x)
    (convertsY : (Number.integer position.y).toBinary64 = .ok y)
    {draws : List Binary64} (enough : draws.length = agent.network.draws) :
    ∃ signals, agent.network.Settles (agent.memory.bound (x, y)) draws signals ∧
      agent.Decides position draws (agent.network.asked signals)
        (agent.withMemory { agent.memory.bound (x, y) with
          signals := signals }) := by
  obtain ⟨signals, settles, -⟩ :=
    compiled.exists_settles convertsX convertsY (Script.ofList draws)
  rw [← enough, Script.take_ofList] at settles
  refine ⟨signals, settles, ?_⟩
  intro Source _ stream same
  obtain ⟨signals', settles', decided⟩ :=
    compiled.exists_settles convertsX convertsY stream
  -- the equations of both firings are the same, and they have one solution
  rw [← enough, same] at settles'
  obtain rfl := settles'.unique compiled.within.1 settles
  rw [decided, enough]

theorem Compiled.exists_decides {agent : Agent} (compiled : agent.Compiled)
    {position : Position} (patterns : position.HasPatterns)
    {draws : List Binary64} (enough : draws.length = agent.network.draws) :
    ∃ move memory, memory.signals.length = agent.network.size ∧
      agent.Decides position draws move (agent.withMemory memory) := by
  obtain ⟨x, convertsX⟩ := Number.exists_toBinary64 patterns.1
  obtain ⟨y, convertsY⟩ := Number.exists_toBinary64 patterns.2
  obtain ⟨signals, settles, decides⟩ :=
    compiled.exists_settles_decides convertsX convertsY enough
  exact ⟨_, _, settles.length, decides⟩

namespace Alone

variable {agent later : Agent} {positions : List Position}
  {draws : List Binary64} {moves : List Move}

theorem nil (agent : Agent) : agent.Alone [] [] [] agent :=
  fun _ _ => rfl

/-- A decision and what is done alone after it are done alone together. -/
theorem cons {position : Position} {share : List Binary64} {move : Move}
    {next : Agent} (first : agent.Decides position share move next)
    (rest : next.Alone positions draws moves later) :
    agent.Alone (position :: positions) (share ++ draws) (move :: moves)
      later := by
  intro Source _ stream same
  rw [List.length_append, DrawSource.take_add] at same ⊢
  obtain ⟨now, after⟩ := List.append_inj same (by rw [DrawSource.length_take])
  exact Procedure.run_mapM_cons_eq_ok.mpr
    ⟨_, _, _, first stream now, rest _ after, rfl⟩

/-- What an agent does alone with given draws is determined. -/
theorem moves_unique {moves' : List Move} {later' : Agent}
    (first : agent.Alone positions draws moves later)
    (second : agent.Alone positions draws moves' later') : moves = moves' := by
  have same :=
    (first (Script.ofList draws) (Script.take_ofList draws)).symm.trans
      (second (Script.ofList draws) (Script.take_ofList draws))
  exact Except.ok.inj (congrArg Prod.fst same)

end Alone

end Agent

end NeuralGenome
