import NeuralGenome.Proofs.Agent.Deciding
import NeuralGenome.Proofs.Network.Dependence
import NeuralGenome.Random.Script

/-!
# Agents that cannot be told apart

Neurons that no output depends on have no influence on the moves.  Two agents
are *twins* over a set of neurons when their networks share that part, it is
shut off from all other neurons, both outputs lie in it, and the memories agree
on it.  All that lies outside may differ: definitions, links and signals.

One decision ends alike for twins that draw from one source and leaves them
twins, and so does whatever is put together from decisions.
-/

namespace NeuralGenome

open Network (AgreeOn)

/-- Neurons that exist in both memories, or in neither, are read alike. -/
theorem Memory.signal_congr {left right : Memory} {neuron : Nat}
    (lengths : left.signals.length = right.signals.length)
    (agree : left.signals[neuron]? = right.signals[neuron]?) :
    left.signal neuron = right.signal neuron := by
  have positions (memory : Memory) :
      ListPosition.get? memory.signals (neuron : Int) =
        memory.signals[neuron]? := by
    rw [ListPosition.get?, ListPosition.place?,
      if_pos (Int.natCast_nonneg neuron)]
    split
    case isTrue => rfl
    case isFalse far =>
      exact (List.getElem?_eq_none (Int.ofNat_le.mp (Int.not_lt.mp far))).symm
  rw [signal, signal, positions, positions, agree, lengths]

namespace Agent

/--
Two agents over a part that their networks share and that gives the answers.
-/
structure Twins (part : Set Nat) (left right : Agent) : Prop where
  share : left.network.Share right.network part
  grounded : left.network.Grounded ∧ right.network.Grounded
  sized : left.memory.signals.length = left.network.size ∧
    right.memory.signals.length = right.network.size
  agree : AgreeOn part left.memory.signals right.memory.signals
  outputs : ∀ axis, left.network.output axis = right.network.output axis
  placed : ∀ axis, ∃ neuron ∈ part, left.network.output axis = (neuron : Int)

namespace Twins

variable {part : Set Nat} {left right : Agent}

theorem size_eq (twins : Twins part left right) :
    left.network.size = right.network.size := by
  have lengths := congrArg List.length twins.share.randoms
  rw [List.length_map, List.length_map] at lengths
  exact lengths

/-- The outputs of twins say the same. -/
theorem move_eq (twins : Twins part left right) : left.move = right.move := by
  have lengths : left.memory.signals.length = right.memory.signals.length := by
    rw [twins.sized.1, twins.sized.2, twins.size_eq]
  have steps (axis : Output) : left.step axis = right.step axis := by
    obtain ⟨neuron, member, output⟩ := twins.placed axis
    rw [step, step, Network.answer, Network.answer,
      ← twins.outputs axis, output,
      Memory.signal_congr lengths (twins.agree neuron member)]
  rw [move, move, steps .dx, steps .dy]

/-- Twins stay twins in memories that fit and agree on the part. -/
theorem withMemory (twins : Twins part left right) {memory other : Memory}
    (sized : memory.signals.length = left.network.size ∧
      other.signals.length = right.network.size)
    (agree : AgreeOn part memory.signals other.signals) :
    Twins part (left.withMemory memory) (right.withMemory other) where
  share := twins.share
  grounded := twins.grounded
  sized := sized
  agree := agree
  outputs := twins.outputs
  placed := twins.placed

end Twins

variable {Source : Type} [DrawSource Source]

/-- Twins that draw from the same source. -/
def SharedTwins (part : Set Nat) (left right : Agent × Source) : Prop :=
  Twins part left.1 right.1 ∧ left.2 = right.2

variable {part : Set Nat}

/-- A decision cannot tell twins apart. -/
theorem respects_decide (position : Position) :
    Procedure.Respects (SharedTwins part)
      (Agent.decide position : Procedure (Agent × Source) Move) := by
  rintro ⟨left, source⟩ ⟨right, _⟩ ⟨twins, rfl⟩
  cases convertsX : (Number.integer position.x).toBinary64 with
  | error fault =>
      rw [run_decide_of_x_error convertsX, run_decide_of_x_error convertsX]
      exact ⟨rfl, twins, rfl⟩
  | ok x =>
      cases convertsY : (Number.integer position.y).toBinary64 with
      | error fault =>
          rw [run_decide_of_y_error convertsX convertsY,
            run_decide_of_y_error convertsX convertsY]
          exact ⟨rfl, twins.withMemory twins.sized twins.agree, rfl⟩
      | ok y =>
          obtain ⟨after, fires, response, length, drawn⟩ :=
            Network.run_fireAll twins.grounded.1 [(x, y)] left.memory source
              twins.sized.1
          obtain ⟨after', fires', response', length', drawn'⟩ :=
            Network.run_fireAll twins.grounded.2 [(x, y)] right.memory source
              twins.sized.2
          have draws := Network.draws_congr twins.share.randoms
          rw [← Network.stimuli_congr draws] at response'
          have reached := twins.withMemory ⟨length, length'⟩
            (response.agree twins.share twins.grounded.1 response' twins.agree)
          rw [Network.fireAll_singleton] at fires fires'
          rw [run_decide_of_fireOn convertsX convertsY fires,
            run_decide_of_fireOn convertsX convertsY fires']
          refine ⟨reached.move_eq, reached, ?_⟩
          show after.source = after'.source
          rw [drawn, drawn', draws]

theorem respects_decisions (positions : List Position) :
    Procedure.Respects (SharedTwins part)
      (decisions positions : Procedure (Agent × Source)
        (List (Except Fault Move))) := by
  refine .attemptAll fun procedure member => ?_
  obtain ⟨position, -, rfl⟩ := List.mem_map.mp member
  exact respects_decide position

/--
Twins decide alike for ever, also about the positions that a walk leads to.
-/
theorem respects_walk (position : Position) (steps : Nat) :
    Procedure.Respects (SharedTwins part)
      (walk position steps : Procedure (Agent × Source) (List Position)) := by
  refine .trail (fun place => ?_) position steps
  rw [advance]
  exact (respects_decide place).bind fun move => .pure (place.move move)

end Agent

namespace Network

/--
What lies outside a part that is shut off has no influence on it.  Two networks
that share the part, with memories that agree on it, agree on it after every
series of firings with the same inputs and the same draws; and if both outputs
lie in it, agents with these networks decide the same and walk the same paths.
-/
theorem shared_part_undisturbed (left right : Network) (part : Set Nat)
    (share : left.Share right part)
    (grounded : left.Grounded ∧ right.Grounded) (memory other : Memory)
    (sized : memory.signals.length = left.size ∧
      other.signals.length = right.size)
    (agree : AgreeOn part memory.signals other.signals)
    {Source : Type} [DrawSource Source] (source : Source) :
    (∀ inputs, ∃ after after' : Activity Source,
      (left.fireAll inputs).run ⟨memory, source⟩ = (.ok (), after) ∧
        (right.fireAll inputs).run ⟨other, source⟩ = (.ok (), after') ∧
        AgreeOn part after.memory.signals after'.memory.signals ∧
        after.source = after'.source) ∧
      ((∀ axis, left.output axis = right.output axis ∧
          ∃ neuron ∈ part, left.output axis = (neuron : Int)) →
        ∀ chromosome chromosome' : Chromosome,
          (∀ positions, ∃ moves,
            ((Agent.decisions positions).run
              (⟨chromosome, left, memory⟩, source)).1 = .ok moves ∧
            ((Agent.decisions positions).run
              (⟨chromosome', right, other⟩, source)).1 = .ok moves) ∧
          ∀ position steps,
            ((Agent.walk position steps).run
              (⟨chromosome, left, memory⟩, source)).1 =
            ((Agent.walk position steps).run
              (⟨chromosome', right, other⟩, source)).1) := by
  refine ⟨?_, ?_⟩
  · intro inputs
    obtain ⟨after, fires, response, -, drawn⟩ :=
      run_fireAll grounded.1 inputs memory source sized.1
    obtain ⟨after', fires', response', -, drawn'⟩ :=
      run_fireAll grounded.2 inputs other source sized.2
    have draws := draws_congr share.randoms
    rw [← stimuli_congr draws] at response'
    exact ⟨after, after', fires, fires',
      response.agree share grounded.1 response' agree,
      by rw [drawn, drawn', draws]⟩
  · intro outputs chromosome chromosome'
    have twins : Agent.SharedTwins part (⟨chromosome, left, memory⟩, source)
        (⟨chromosome', right, other⟩, source) :=
      ⟨⟨share, grounded, sized, agree, fun axis => (outputs axis).1,
        fun axis => (outputs axis).2⟩, rfl⟩
    constructor
    · intro positions
      obtain ⟨moves, after, decided⟩ :=
        Procedure.exists_run_attemptAll (positions.map Agent.decide)
          ((⟨chromosome, left, memory⟩, source) : Agent × Source)
      have same := (Agent.respects_decisions positions _ _ twins).1
      refine ⟨moves, ?_, ?_⟩
      · rw [Agent.decisions, decided]
      · rw [← same, Agent.decisions, decided]
    · intro position steps
      exact (Agent.respects_walk position steps _ _ twins).1

/--
A sum that adds an input to its own last signal, next to a draw and other
neurons.
-/
def tally (others : List LinkedNeuron) : Network where
  neurons :=
    [⟨⟨.inputX, .zero⟩, []⟩, ⟨⟨.sum, .zero⟩, [0, 1]⟩,
      ⟨⟨.random, .zero⟩, []⟩] ++ others
  dx := 1
  dy := 0

theorem share_tally {others others' : List LinkedNeuron}
    (randoms : others.map LinkedNeuron.isRandom =
      others'.map LinkedNeuron.isRandom) :
    (tally others).Share (tally others') {0, 1} where
  randoms := by
    rw [tally, tally, List.map_append, List.map_append, randoms]
  alike := by
    rintro _ (rfl | rfl) <;> rfl
  closed := by
    rintro _ (rfl | rfl) link ⟨linked, found, looks, member⟩ <;> cases found
    · cases looks
    · rcases List.mem_cons.mp member with first | member
      · exact .inl (Int.ofNat_inj.mp first)
      · exact .inr (Int.ofNat_inj.mp (List.mem_singleton.mp member))

theorem shared_part_undisturbed_tally :
    let left := tally [⟨⟨.maximum, .zero⟩, [2, 1]⟩]
    let right := tally [⟨⟨.fixed, .half⟩, [7]⟩]
    let memory : Memory := ⟨.zero, .zero, [.zero, .one, .half, .zero]⟩
    let other : Memory := ⟨.one, .one, [.zero, .one, .zero, .half]⟩
    left.Share right {0, 1} ∧ (left.Grounded ∧ right.Grounded) ∧
      AgreeOn {0, 1} memory.signals other.signals ∧
      ∃ moves,
        ((Agent.decisions [⟨3, 2⟩, ⟨-5, 1⟩, ⟨4, 4⟩]).run
          (⟨⟨[]⟩, left, memory⟩, Script.ofList [.half])).1 = .ok moves ∧
        ((Agent.decisions [⟨3, 2⟩, ⟨-5, 1⟩, ⟨4, 4⟩]).run
          (⟨⟨[]⟩, right, other⟩, Script.ofList [.half])).1 = .ok moves := by
  intro left right memory other
  have share : left.Share right {0, 1} := share_tally rfl
  have grounded : left.Grounded ∧ right.Grounded := by decide
  have agree : AgreeOn {0, 1} memory.signals other.signals := by
    rintro _ (rfl | rfl) <;> rfl
  have outputs (axis : Output) : left.output axis = right.output axis ∧
      ∃ neuron ∈ ({0, 1} : Set Nat), left.output axis = (neuron : Int) := by
    cases axis with
    | dx => exact ⟨rfl, 1, .inr rfl, rfl⟩
    | dy => exact ⟨rfl, 0, .inl rfl, rfl⟩
  exact ⟨share, grounded, agree,
    ((shared_part_undisturbed left right {0, 1} share grounded memory other
      ⟨rfl, rfl⟩ agree (Script.ofList [.half])).2 outputs _ _).1 _⟩

/--
The last signal counts: the second position does not bring the sum below zero.
-/
example :
    (((Agent.decisions [⟨3, 2⟩, ⟨-4, 1⟩, ⟨-4, -4⟩]).run
      (⟨⟨[]⟩, tally [], ⟨.zero, .zero, [.zero, .one, .half]⟩⟩,
        Script.ofList [.half])).1.map (·.map Except.toOption)).toOption =
      some [some ⟨1, 1⟩, some ⟨0, -1⟩, some ⟨-1, -1⟩] := by
  decide +kernel

end Network

end NeuralGenome
