import NeuralGenome.Agent.Troupe
import NeuralGenome.Proofs.Agent.Alone

/-!
# Agents that take turns

The agents of a troupe draw from one source, so each of them moves the stream
of draws on for all the others.  They have nothing else in common.  A turn
takes as many draws as its agent has random neurons, so which draws go to
which turn is known before any of them is made.

The main theorem says that in a troupe each agent makes the moves that it
makes alone with its own share of the common stream.
-/

namespace NeuralGenome

/-! ## Turns -/

namespace Troupe

/-- A call to one agent of a troupe. -/
structure Turn where
  number : Nat
  position : Position
deriving DecidableEq

namespace Turn

/--
The values that belong to the turns of one agent, when there is one for each
turn.
-/
def own {Value : Type} (number : Nat) (turns : List Turn)
    (values : List Value) : List Value :=
  ((turns.zip values).filter (·.1.number == number)).map Prod.snd

/-- The positions that one agent is asked about. -/
def ownPositions (number : Nat) (turns : List Turn) : List Position :=
  own number turns (turns.map position)

section Own

variable {Value : Type} {number : Nat} {turn : Turn} {turns : List Turn}
  {value : Value} {values : List Value}

theorem own_cons_of_eq (same : turn.number = number) :
    own number (turn :: turns) (value :: values) =
      value :: own number turns values := by
  have kept : (turn.number == number) = true := beq_iff_eq.mpr same
  simp only [own, List.zip_cons_cons, List.filter_cons, kept, if_true,
    List.map_cons]

theorem own_cons_of_ne (other : turn.number ≠ number) :
    own number (turn :: turns) (value :: values) = own number turns values := by
  have dropped : (turn.number == number) = false := beq_false_of_ne other
  simp only [own, List.zip_cons_cons, List.filter_cons, dropped,
    Bool.false_eq_true, if_false]

end Own

end Turn

/-- How many draws a turn takes: one for each random neuron of its agent. -/
def demand (agents : List Agent) (turn : Turn) : Nat :=
  (agents[turn.number]?.map (·.network.draws)).getD 0

/-- How many draws turns take together. -/
def totalDemand (agents : List Agent) : List Turn → Nat
  | [] => 0
  | turn :: rest => demand agents turn + totalDemand agents rest

theorem demand_of_getElem? {agents : List Agent} {turn : Turn} {agent : Agent}
    (found : agents[turn.number]? = some agent) :
    demand agents turn = agent.network.draws := by
  rw [demand, found]
  rfl

/-- What an agent remembers does not change what turns take. -/
theorem demand_set {agents : List Agent} {number : Nat} {agent : Agent}
    (found : agents[number]? = some agent) (memory : Memory) :
    demand (agents.set number (agent.withMemory memory)) = demand agents := by
  funext turn
  by_cases same : number = turn.number
  · subst same
    have inside := (List.getElem?_eq_some_iff.mp found).1
    rw [demand_of_getElem? found,
      demand_of_getElem? (List.getElem?_set_self inside)]
    rfl
  · rw [demand, List.getElem?_set_ne same, demand]

/-- Turns that name an agent and a position with two patterns. -/
def Admits (agents : List Agent) (turns : List Turn) : Prop :=
  ∀ turn ∈ turns, turn.number < agents.length ∧ turn.position.HasPatterns

instance (agents : List Agent) (turns : List Turn) :
    Decidable (Admits agents turns) :=
  inferInstanceAs (Decidable (∀ _ ∈ _, _))

/-- An agent that acts is changed, and nothing else but the source. -/
theorem run_act {Source Value : Type} {number : Nat}
    {procedure : Procedure (Agent × Source) Value}
    {troupe : Troupe Source} {agent later : Agent} {source : Source}
    {outcome : Except Fault Value} (found : troupe.agents[number]? = some agent)
    (done : procedure.run (agent, troupe.source) = (outcome, (later, source))) :
    (act number procedure).run troupe =
      (outcome, ⟨troupe.agents.set number later, source⟩) := by
  rw [act, Procedure.run_bind_of_ok (Procedure.run_get troupe), found]
  exact @Procedure.run_within _ _ _ (fun troupe => (agent, troupe.source)) _ _
    troupe _ _ done

section Playing

variable {Source : Type} [DrawSource Source]

/-- Let agents decide in turn. -/
def play (turns : List Turn) : Procedure (Troupe Source) (List Move) :=
  turns.mapM fun turn => decide turn.number turn.position

/--
The draws of each turn: every turn takes up the stream where the one before left
it.
-/
def shares (agents : List Agent) (source : Source) :
    List Turn → List (List Binary64)
  | [] => []
  | turn :: rest =>
      (DrawSource.take (demand agents turn) source).1 ::
        shares agents (DrawSource.take (demand agents turn) source).2 rest

/--
The shares of all turns make up the stream, without a gap and in the order of
the turns.
-/
theorem flatten_shares (agents : List Agent) (source : Source)
    (turns : List Turn) : (shares agents source turns).flatten =
      (DrawSource.take (totalDemand agents turns) source).1 := by
  induction turns generalizing source with
  | nil => rfl
  | cons turn rest ih =>
      rw [shares, List.flatten_cons, ih, totalDemand, DrawSource.take_add]

theorem map_length_shares (agents : List Agent) (source : Source)
    (turns : List Turn) :
    (shares agents source turns).map List.length =
      turns.map (demand agents) := by
  induction turns generalizing source with
  | nil => rfl
  | cons turn rest ih =>
      rw [shares, List.map_cons, DrawSource.length_take, ih, List.map_cons]

theorem shares_congr {agents agents' : List Agent}
    (same : demand agents = demand agents') (source : Source)
    (turns : List Turn) :
    shares agents source turns = shares agents' source turns := by
  induction turns generalizing source with
  | nil => rfl
  | cons turn rest ih => rw [shares, shares, same, ih]

theorem totalDemand_congr {agents agents' : List Agent}
    (same : demand agents = demand agents') (turns : List Turn) :
    totalDemand agents turns = totalDemand agents' turns := by
  induction turns with
  | nil => rfl
  | cons turn rest ih => rw [totalDemand, totalDemand, same, ih]

/--
One turn: its agent decides with the next draws of the stream, one for each of
its random neurons, and the other agents stay as they are.
-/
theorem exists_turn {agents : List Agent}
    (compiled : ∀ agent ∈ agents, agent.Compiled)
    {turn : Turn} {agent : Agent} (found : agents[turn.number]? = some agent)
    (patterns : turn.position.HasPatterns) (source : Source) :
    ∃ move memory, memory.signals.length = agent.network.size ∧
      agent.Decides turn.position
        (DrawSource.take (demand agents turn) source).1 move
        (agent.withMemory memory) ∧
      (decide turn.number turn.position).run ⟨agents, source⟩ =
        (.ok move, ⟨agents.set turn.number (agent.withMemory memory),
          (DrawSource.take (demand agents turn) source).2⟩) := by
  have length := DrawSource.length_take (demand agents turn) source
  obtain ⟨move, memory, sized, decides⟩ :=
    (compiled agent (List.mem_of_getElem? found)).exists_decides patterns
      (length.trans (demand_of_getElem? found))
  refine ⟨move, memory, sized, decides, ?_⟩
  have done := decides source (by rw [length])
  rw [length] at done
  have acting :
      (Troupe.mk agents source).agents[turn.number]? = some agent := found
  exact run_act acting done

/--
Agents stay compiled when one of them remembers as many signals as before.
-/
theorem compiled_set {agents : List Agent}
    (compiled : ∀ agent ∈ agents, agent.Compiled)
    {number : Nat} {agent : Agent} (found : agents[number]? = some agent)
    {memory : Memory} (sized : memory.signals.length = agent.network.size) :
    ∀ other ∈ agents.set number (agent.withMemory memory), other.Compiled := by
  intro other member
  rcases List.mem_or_eq_of_mem_set member with old | rfl
  · exact compiled other old
  · exact (compiled agent (List.mem_of_getElem? found)).withMemory sized

/--
What a whole run of turns leaves behind: it has drawn what the turns take
together, and each agent has made its moves as it makes them alone.
-/
theorem exists_play (agents : List Agent)
    (compiled : ∀ agent ∈ agents, agent.Compiled)
    {turns : List Turn} (admitted : Admits agents turns) (source : Source) :
    ∃ moves later,
      (play turns).run ⟨agents, source⟩ =
        (.ok moves, ⟨later,
          (DrawSource.take (totalDemand agents turns) source).2⟩) ∧
      moves.length = turns.length ∧
      (∀ agent ∈ later, agent.Compiled) ∧
      later.length = agents.length ∧ demand later = demand agents ∧
      ∀ (number : Nat) (agent : Agent), agents[number]? = some agent →
        ∃ become, later[number]? = some become ∧
          agent.Alone (Turn.ownPositions number turns)
            (Turn.own number turns (shares agents source turns)).flatten
            (Turn.own number turns moves) become := by
  induction turns generalizing agents source with
  | nil =>
      exact ⟨[], agents, rfl, rfl, compiled, rfl, rfl,
        fun number agent found => ⟨agent, found, Agent.Alone.nil agent⟩⟩
  | cons turn rest ih =>
      obtain ⟨⟨inside, patterns⟩, admitted⟩ := List.forall_mem_cons.mp admitted
      obtain ⟨agent, found⟩ : ∃ agent, agents[turn.number]? = some agent :=
        ⟨_, List.getElem?_eq_getElem inside⟩
      obtain ⟨move, memory, sized, decides, done⟩ :=
        exists_turn compiled found patterns source
      have unchanged := demand_set found memory
      have still := compiled_set compiled found sized
      obtain ⟨moves, later, ended, counted, ready, length, same, alone⟩ :=
        ih _ still (fun turn member => by
          rw [List.length_set]
          exact admitted turn member)
            (DrawSource.take (demand agents turn) source).2
      rw [List.length_set] at length
      refine ⟨move :: moves, later, ?_, ?_, ready, length,
        same.trans unchanged, ?_⟩
      · rw [totalDemand, DrawSource.take_add, ← totalDemand_congr unchanged]
        exact Procedure.run_mapM_cons_eq_ok.mpr ⟨_, _, _, done, ended, rfl⟩
      · rw [List.length_cons, counted, List.length_cons]
      · intro number other foundOther
        rw [shares, ← shares_congr unchanged, Turn.ownPositions, List.map_cons]
        by_cases here : turn.number = number
        · -- the agent whose turn it is goes on alone from what it has become
          subst here
          rw [found] at foundOther
          cases foundOther
          obtain ⟨become, foundLater, after⟩ :=
            alone turn.number (agent.withMemory memory)
              (List.getElem?_set_self inside)
          refine ⟨become, foundLater, ?_⟩
          rw [Turn.own_cons_of_eq rfl, Turn.own_cons_of_eq rfl,
            Turn.own_cons_of_eq rfl, List.flatten_cons]
          exact Agent.Alone.cons decides after
        · obtain ⟨become, foundLater, after⟩ :=
            alone number other (by rw [List.getElem?_set_ne here, foundOther])
          refine ⟨become, foundLater, ?_⟩
          rw [Turn.own_cons_of_ne here, Turn.own_cons_of_ne here,
            Turn.own_cons_of_ne here]
          exact after

theorem shares_append (agents : List Agent) (source : Source)
    (earlier rest : List Turn) :
    shares agents source (earlier ++ rest) =
      shares agents source earlier ++
        shares agents (DrawSource.take (totalDemand agents earlier) source).2
          rest := by
  induction earlier generalizing source with
  | nil => rfl
  | cons turn earlier ih =>
      rw [List.cons_append, shares, ih, shares, List.cons_append, totalDemand,
        DrawSource.take_add]

/--
The turns of an agent without random neurons take nothing from the stream.
-/
theorem own_shares_eq_nil {agents : List Agent} {number : Nat} {agent : Agent}
    (found : agents[number]? = some agent) (quiet : agent.network.draws = 0)
    (source : Source) (turns : List Turn) :
    (Turn.own number turns (shares agents source turns)).flatten = [] := by
  induction turns generalizing source with
  | nil => rfl
  | cons turn rest ih =>
      rw [shares]
      by_cases here : turn.number = number
      · subst here
        rw [Turn.own_cons_of_eq rfl, List.flatten_cons, ih,
          demand_of_getElem? found, quiet]
        rfl
      · rw [Turn.own_cons_of_ne here, ih]

/--
Agents that share a source disturb each other by the order of their draws only.
Compiled agents that decide in turn always succeed.  Each turn takes one draw
for each random neuron of its agent, starting where the turn before left the
stream, and so the shares of the turns make up the stream.  Each agent makes the
moves, and becomes the agent, that it makes and becomes alone with any stream
that begins with its own shares.  So an agent without random neurons makes the
same moves among any other agents, in any order of turns, and with any source.
-/
theorem interleaving_undisturbed (agents : List Agent)
    (compiled : ∀ agent ∈ agents, agent.Compiled) (turns : List Turn)
    (admitted : Admits agents turns) (source : Source) :
    ∃ moves later,
      (play turns).run ⟨agents, source⟩ = (.ok moves, later) ∧
      moves.length = turns.length ∧
      (∀ earlier turn rest, turns = earlier ++ turn :: rest →
        ∃ agent earlierMoves before move after,
          agents[turn.number]? = some agent ∧
          (play earlier).run ⟨agents, source⟩ = (.ok earlierMoves, before) ∧
          before.source =
            (DrawSource.take (totalDemand agents earlier) source).2 ∧
          (decide turn.number turn.position).run before = (.ok move, after) ∧
          (shares agents source turns)[earlier.length]? =
            some (DrawSource.take agent.network.draws before.source).1 ∧
          after.source =
            (DrawSource.take agent.network.draws before.source).2) ∧
      (shares agents source turns).flatten =
        (DrawSource.take (totalDemand agents turns) source).1 ∧
      (∀ (number : Nat) (agent : Agent), agents[number]? = some agent →
        ∃ become, later.agents[number]? = some become ∧
          agent.Alone (Turn.ownPositions number turns)
            (Turn.own number turns (shares agents source turns)).flatten
            (Turn.own number turns moves) become) ∧
      ∀ (number : Nat) (agent : Agent), agents[number]? = some agent →
        agent.network.draws = 0 →
        ∀ (others : List Agent) (otherTurns : List Turn) (otherNumber : Nat),
          (∀ other ∈ others, other.Compiled) → Admits others otherTurns →
          others[otherNumber]? = some agent →
          Turn.ownPositions otherNumber otherTurns =
            Turn.ownPositions number turns →
          ∀ {Other : Type} [DrawSource Other] (other : Other),
            ∃ otherMoves after,
              (play otherTurns).run ⟨others, other⟩ = (.ok otherMoves, after) ∧
              Turn.own otherNumber otherTurns otherMoves =
                Turn.own number turns moves := by
  obtain ⟨moves, later, played, counted, -, -, -, alone⟩ :=
    exists_play agents compiled admitted source
  refine ⟨moves, _, played, counted, ?_, flatten_shares agents source turns,
    alone, ?_⟩
  · rintro earlier turn rest rfl
    obtain ⟨before, now⟩ := List.forall_mem_append.mp admitted
    obtain ⟨inside, patterns⟩ := now turn List.mem_cons_self
    obtain ⟨earlierMoves, reached, playedBefore, -, ready, length, same, -⟩ :=
      exists_play agents compiled before source
    have insideStill : turn.number < reached.length := length ▸ inside
    obtain ⟨move, memory, -, -, done⟩ :=
      exists_turn ready (List.getElem?_eq_getElem insideStill) patterns
        (DrawSource.take (totalDemand agents earlier) source).2
    have found := List.getElem?_eq_getElem inside
    rw [same, demand_of_getElem? found] at done
    refine ⟨_, earlierMoves, _, move, _, found, playedBefore, rfl, done,
      ?_, rfl⟩
    have place : (shares agents source earlier).length = earlier.length := by
      have lengths :=
        congrArg List.length (map_length_shares agents source earlier)
      rwa [List.length_map, List.length_map] at lengths
    rw [shares_append, List.getElem?_append_right (Nat.le_of_eq place), place,
      Nat.sub_self, shares, demand_of_getElem? found]
    rfl
  · intro number agent found quiet others otherTurns otherNumber compiledToo
      admittedToo foundToo samePositions Other _ other
    obtain ⟨otherMoves, after, playedToo, -, -, -, -, aloneToo⟩ :=
      exists_play others compiledToo admittedToo other
    refine ⟨otherMoves, _, playedToo, ?_⟩
    obtain ⟨_, -, first⟩ := alone number agent found
    obtain ⟨_, -, second⟩ := aloneToo otherNumber agent foundToo
    rw [own_shares_eq_nil found quiet] at first
    rw [own_shares_eq_nil foundToo quiet, samePositions] at second
    exact second.moves_unique first

end Playing

/--
The agent of a program whose horizontal answer is a draw and whose vertical one
sums up all draws so far.
-/
def wanderer : Agent where
  chromosome :=
    .ofProgram [.create .random, .assign .dx .two, .create .sum, .readFrom .two,
    .readFrom .minusOne, .assign .dy .minusOne]
  network :=
    { neurons :=
        [⟨⟨.inputX, .zero⟩, []⟩, ⟨⟨.inputY, .zero⟩, []⟩, ⟨⟨.random, .zero⟩, []⟩,
          ⟨⟨.sum, .zero⟩, [2, 3]⟩]
      dx := 2
      dy := 3 }
  memory := .initial 4

/--
The agent of a program without random neurons, which sums up its first inputs so
far.
-/
def tallier : Agent where
  chromosome :=
    .ofProgram [.create .sum, .readFrom .zero, .readFrom .two, .assign .dx .two,
    .assign .dy .one]
  network :=
    { neurons :=
        [⟨⟨.inputX, .zero⟩, []⟩, ⟨⟨.inputY, .zero⟩, []⟩,
          ⟨⟨.sum, .zero⟩, [0, 2]⟩]
      dx := 2
      dy := 1 }
  memory := .initial 3

theorem compiled_pair : ∀ agent ∈ [wanderer, tallier], agent.Compiled := by
  refine List.forall_mem_cons.mpr ⟨?_, List.forall_mem_singleton.mpr ?_⟩
  · have made : Agent.create wanderer.chromosome = .ok wanderer := rfl
    exact .of_create made
  · have made : Agent.create tallier.chromosome = .ok tallier := rfl
    exact .of_create made

theorem interleaving_undisturbed_pair :
    let agents := [wanderer, tallier]
    let turns : List Turn :=
      [⟨0, ⟨3, -2⟩⟩, ⟨1, ⟨-1, 0⟩⟩, ⟨0, ⟨3, 4⟩⟩, ⟨1, ⟨5, 5⟩⟩, ⟨1, ⟨-9, 1⟩⟩,
        ⟨0, ⟨0, 0⟩⟩]
    let source := Script.ofList [.half, .zero]
    (∀ agent ∈ agents, agent.Compiled) ∧ Admits agents turns ∧
      ∃ moves later,
        (play turns).run ⟨agents, source⟩ = (.ok moves, later) ∧
          (∃ become, later.agents[0]? = some become ∧
            wanderer.Alone [⟨3, -2⟩, ⟨3, 4⟩, ⟨0, 0⟩] [.half, .zero, .half]
              (Turn.own 0 turns moves) become) ∧
          ∃ become, later.agents[1]? = some become ∧
            tallier.Alone [⟨-1, 0⟩, ⟨5, 5⟩, ⟨-9, 1⟩] [] (Turn.own 1 turns moves)
              become := by
  intro agents turns source
  have admitted : Admits agents turns := by decide +kernel
  obtain ⟨moves, later, played, -, -, -, alone, -⟩ :=
    interleaving_undisturbed agents compiled_pair turns admitted source
  have first : (Turn.own 0 turns (shares agents source turns)).flatten =
      [.half, .zero, .half] := by decide +kernel
  have second : (Turn.own 1 turns (shares agents source turns)).flatten =
      [] := by
    decide +kernel
  have wandering := alone 0 wanderer rfl
  have tallying := alone 1 tallier rfl
  rw [first] at wandering
  rw [second] at tallying
  exact ⟨compiled_pair, admitted, moves, later, played, wandering, tallying⟩

end Troupe

end NeuralGenome
