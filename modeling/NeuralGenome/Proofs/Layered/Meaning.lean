import NeuralGenome.Proofs.Layered.Handles
import NeuralGenome.Proofs.Network.Pass
import NeuralGenome.Random.Script

/-!
# What layered programs mean

The program of a session becomes a network in which every handle names the
neuron that it was given out for.  Neurons read earlier neurons only, so one
firing is enough: whatever the network remembered, after it each neuron emits
the signal that it is for.
-/

namespace NeuralGenome

open ListPosition (Within)

/-! ## Outputs of a blueprint -/

namespace Blueprint

theorem output_extend? {blueprint next : Blueprint} {position : Int}
    {neuron : Nat} (extended : blueprint.extend? position neuron = some next) :
    next.output = blueprint.output := by
  obtain ⟨place, -, rest⟩ := Option.bind_eq_some_iff.mp extended
  obtain ⟨layer, -, returned⟩ := Option.bind_eq_some_iff.mp rest
  cases returned
  rfl

/-- Only the designation of an axis changes which neuron answers for it. -/
theorem output_perform? {blueprint next : Blueprint}
    {operation : Session.Operation}
    (performed : blueprint.perform? operation = some next) (axis : Output) :
    next.output axis = blueprint.output axis ∨
      ∃ sum, operation = .assign axis sum := by
  cases operation with
  | emptyLayer =>
      cases performed
      exact .inl rfl
  | newLayer neurons =>
      obtain ⟨-, returned⟩ := Option.ite_none_right_eq_some.mp performed
      cases returned
      exact .inl rfl
  | x position => exact .inl (congrFun (output_extend? performed) axis)
  | y position => exact .inl (congrFun (output_extend? performed) axis)
  | constant position signal =>
      obtain ⟨value, -, extended⟩ := Option.bind_eq_some_iff.mp performed
      exact .inl (congrFun (output_extend? extended) axis)
  | random position => exact .inl (congrFun (output_extend? performed) axis)
  | weighted position weights =>
      obtain ⟨layer, -, rest⟩ := Option.bind_eq_some_iff.mp performed
      obtain ⟨values, -, rest⟩ := Option.bind_eq_some_iff.mp rest
      obtain ⟨-, returned⟩ := Option.ite_none_right_eq_some.mp rest
      cases returned
      exact .inl rfl
  | sum position =>
      obtain ⟨layer, -, returned⟩ := Option.bind_eq_some_iff.mp performed
      cases returned
      exact .inl rfl
  | assign output position =>
      obtain ⟨neuron, -, returned⟩ := Option.bind_eq_some_iff.mp performed
      cases returned
      rw [output_designate]
      by_cases same : axis = output
      · exact .inr ⟨position, by rw [same]⟩
      · exact .inl (if_neg same)
  | count position =>
      obtain ⟨layer, -, returned⟩ := Option.bind_eq_some_iff.mp performed
      cases returned
      exact .inl rfl
  | program =>
      cases performed
      exact .inl rfl
  | allocate => cases performed

/--
An axis that has an answer keeps one, and designating an axis gives it one.
-/
theorem isSome_output_perform? {blueprint next : Blueprint}
    {operation : Session.Operation}
    (performed : blueprint.perform? operation = some next) {axis : Output}
    (answered : (blueprint.output axis).isSome ∨
      ∃ sum, operation = .assign axis sum) :
    (next.output axis).isSome := by
  have designated (assigned : ∃ sum, operation = .assign axis sum) :
      (next.output axis).isSome := by
    obtain ⟨sum, rfl⟩ := assigned
    obtain ⟨neuron, -, returned⟩ := Option.bind_eq_some_iff.mp performed
    cases returned
    rw [output_designate]
    exact Option.isSome_of_eq_some (if_pos rfl)
  rcases answered with already | assigned
  · rcases output_perform? performed axis with same | assigned
    · rw [same]
      exact already
    · exact designated assigned
  · exact designated assigned

theorem isSome_output_performAll? {operations : List Session.Operation}
    {blueprint last : Blueprint}
    (performed : blueprint.performAll? operations = some last) {axis : Output}
    (answered : (blueprint.output axis).isSome ∨ ∃ sum, .assign axis sum ∈
      operations) :
    (last.output axis).isSome := by
  induction operations generalizing blueprint with
  | nil =>
      cases performed
      exact answered.resolve_right fun ⟨_, member⟩ =>
        absurd member List.not_mem_nil
  | cons operation rest ih =>
      obtain ⟨next, first, later⟩ := Option.bind_eq_some_iff.mp performed
      refine ih later ?_
      rcases answered with already | ⟨sum, member⟩
      · exact .inl (isSome_output_perform? first (.inl already))
      · rcases List.mem_cons.mp member with here | there
        · exact .inl (isSome_output_perform? first (.inr ⟨sum, here.symm⟩))
        · exact .inr ⟨sum, there⟩

end Blueprint

/-! ## Networks -/

/--
A graph that realizes a blueprint becomes a network of its neurons and outputs.
-/
theorem Graph.Realizes.exists_network {graph : Graph} {blueprint : Blueprint}
    (realizes : graph.Realizes blueprint.origins blueprint.output)
    (sound : graph.Sound) (complete : ∀ axis, (blueprint.output axis).isSome) :
    ∃ network, graph.network = .ok network ∧
      network.neurons = blueprint.origins.map Origin.linked ∧
      ∀ axis, (blueprint.output axis).map Int.ofNat =
        some (network.output axis) := by
  have designated : graph.missing = [] := by
    rw [missing_eq_nil_iff]
    intro axis
    rw [realizes.output, Option.isSome_map]
    exact complete axis
  obtain ⟨network, made, definitions, links, outputs⟩ :=
    sound.exists_network designated
  refine ⟨network, made, LinkedNeuron.eq_of_maps ?_ ?_, fun axis => ?_⟩
  · rw [definitions, realizes.neurons, List.map_map]
    rfl
  · rw [links, realizes.inputs, List.map_map]
    rfl
  · rw [← realizes.output, outputs]

/-! ## Firing -/

theorem Origin.isRandom_linked (origin : Origin) :
    origin.linked.isRandom = origin.isRandom := by
  cases origin <;> rfl

/--
A neuron whose parents have their new signals emits the signal that it is for.
-/
theorem Origin.signal_linked (origin : Origin) (memory : Memory)
    (draw : Binary64) (signals : List Binary64) :
    origin.linked.signal memory draw
        (origin.parents.map fun parent => signals.getD parent .zero) =
      origin.signal memory draw signals := by
  cases origin <;> rfl

namespace Network

variable {network : Network} {blueprint : Blueprint}

theorem turn_eq (drawn : network.neurons = blueprint.origins.map Origin.linked)
    (handle : Nat) : network.turn handle = blueprint.turn handle := by
  rw [turn, drawn, ← List.map_take, List.countP_map, Blueprint.turn]
  exact congrArg (List.countP · _) (funext Origin.isRandom_linked)

/-- Every link names an earlier neuron. -/
theorem within_of_sound
    (drawn : network.neurons = blueprint.origins.map Origin.linked)
    (sound : blueprint.Sound) (handle : Nat) (neuron : LinkedNeuron)
    (found : network.neurons[handle]? = some neuron) :
    ∀ link ∈ neuron.links, Within handle link := by
  rw [drawn, List.getElem?_map, Option.map_eq_some_iff] at found
  obtain ⟨origin, here, rfl⟩ := found
  intro link member
  obtain ⟨parent, inside, rfl⟩ := List.mem_map.mp member
  exact ⟨Int.natCast_nonneg parent,
    Int.ofNat_lt.mpr (sound.parents handle origin here parent inside)⟩

/-- The signals that settle a firing are those that the neurons are for. -/
theorem Settles.signal_eq {memory : Memory} {draws after : List Binary64}
    (settles : network.Settles memory draws after)
    (drawn : network.neurons = blueprint.origins.map Origin.linked)
    (sound : blueprint.Sound) {handle : Nat} {origin : Origin}
    (found : blueprint.origins[handle]? = some origin) :
    after[handle]? =
      some (origin.signal memory (draws.getD (blueprint.turn handle) .zero)
        after) := by
  have here : network.neurons[handle]? = some origin.linked := by
    rw [drawn, List.getElem?_map, found]
    rfl
  -- every parent is earlier, so that its new signal is read
  have read :
      origin.linked.links.map (Memory.reading memory.signals after handle) =
        origin.parents.map fun parent => after.getD parent .zero := by
    rw [Origin.linked, List.map_map]
    refine List.map_congr_left fun parent member => ?_
    have earlier := sound.parents handle origin found parent member
    exact if_pos (Int.ofNat_lt.mpr earlier)
  rw [settles.signal handle origin.linked here, read, Origin.signal_linked,
    turn_eq drawn]

end Network

namespace Session

/--
A layered program means what its handles say.  Take any operations that succeed,
make layers only of neurons that exist, take no number for nothing and designate
both outputs, with fewer neurons than there are indexes.  Then the numbers in
all layers and sums are the handles of a blueprint, and the program becomes the
network of that blueprint: each neuron stands at its handle, it reads its
parents by their own handles, which are lower, and the outputs are the sums
designated last.  From whatever memory the network is fired, it fires without a
fault, and then every neuron emits the signal that it is for.
-/
theorem handles_mean (operations : List Operation) {answers : List Answer}
    {session : Session}
    (ran : (operations.mapM perform).run initial = (.ok answers, session))
    (admitted : initial.Admits operations)
    (assigned : ∀ axis, ∃ sum, .assign axis sum ∈ operations)
    (few : session.programmer.nextNeuron < 0x80000000) :
    ∃ (blueprint : Blueprint) (network : Network),
      Blueprint.initial.performAll? operations = some blueprint ∧
      session.programmer.nextNeuron = blueprint.fresh ∧
      session.layers = blueprint.layers.map (·.map Int.ofNat) ∧
      session.sums = blueprint.sums.map Int.ofNat ∧
      session.programmer.program.network = .ok network ∧
      network.neurons = blueprint.origins.map Origin.linked ∧
      (∀ axis, (blueprint.output axis).map Int.ofNat =
        some (network.output axis)) ∧
      (∀ (handle : Nat) (neuron : LinkedNeuron),
        network.neurons[handle]? = some neuron →
        ∀ link ∈ neuron.links, Within handle link) ∧
      ∀ {Source : Type} [DrawSource Source] (memory : Memory) (source : Source),
        memory.signals.length = network.size →
          ∃ signals,
            network.fire.run ⟨memory, source⟩ =
              (.ok (), ⟨{ memory with signals := signals },
                (DrawSource.take network.draws source).2⟩) ∧
            signals.length = blueprint.fresh ∧
            ∀ (handle : Nat) (origin : Origin),
              blueprint.origins[handle]? = some origin →
              signals[handle]? = some (origin.signal memory
                ((DrawSource.take network.draws source).1.getD
                  (blueprint.turn handle) .zero)
                signals) := by
  obtain ⟨blueprint, performed, realizes⟩ :=
    realizes_initial.performAll admitted ran
  have complete (axis : Output) : (blueprint.output axis).isSome :=
    Blueprint.isSome_output_performAll? performed (.inr (assigned axis))
  have counted : blueprint.origins.length ≤ 0x80000000 := by
    rw [realizes.programmer.next] at few
    omega
  have sound := session.programmer.program.sound_compiled
  obtain ⟨network, made, drawn, outputs⟩ :=
    (realizes.programmer.graph counted).exists_network sound complete
  have size : network.size = blueprint.fresh := by
    rw [Network.size, drawn, List.length_map]
    rfl
  refine ⟨blueprint, network, performed, realizes.programmer.next,
    realizes.layers, realizes.sums,
    session.programmer.program.network_eq.trans made, drawn, outputs,
    Network.within_of_sound drawn realizes.sound, ?_⟩
  intro Source _ memory source sized
  have grounded : network.Grounded := fun neuron member _ =>
    (sound.within_network made).2.1 neuron member
  obtain ⟨signals, fired, settles⟩ :=
    network.run_fire memory source sized grounded
  exact ⟨signals, fired, settles.length.trans size,
    fun handle origin found => settles.signal_eq drawn realizes.sound found⟩

/--
Two layers over the inputs, a constant and a draw, the second made of handles on
the first.
-/
def tower : List Operation :=
  [.emptyLayer, .x 0, .y 0, .constant (-1) (.integer 3), .random 0,
    .weighted 0 [.pattern .half, .integer (-1), .pattern .two,
      .pattern .negativeZero],
    .sum 1, .newLayer [8, 2], .weighted (-1) [.integer 1, .pattern .half],
    .sum (-1), .assign .dy 0, .assign .dx 0, .assign .dy (-1)]

/-- What the neurons of the tower are for. -/
def towerPlan : Blueprint where
  origins :=
    [.x, .y, .constant ⟨0x4008000000000000⟩, .random,
      .child 0 .half, .child 1 ⟨0xbff0000000000000⟩, .child 2 .two,
      .child 3 .negativeZero, .total [4, 5, 6, 7], .child 8 .one,
      .child 2 .half, .total [9, 10]]
  layers := [[0, 1, 2, 3], [4, 5, 6, 7], [8, 2], [9, 10]]
  sums := [8, 11]
  dx := some 8
  dy := some 11

theorem handles_mean_tower :
    initial.Admits tower ∧ (∀ axis, ∃ sum, .assign axis sum ∈ tower) ∧
      ∃ answers session network,
        (tower.mapM perform).run initial = (.ok answers, session) ∧
        session.programmer.nextNeuron < 0x80000000 ∧
        session.sums = [8, 11] ∧
        session.programmer.program.network = .ok network ∧
        network.neurons = towerPlan.origins.map Origin.linked ∧
        network.dx = 8 ∧ network.dy = 11 := by
  have admitted : initial.Admits tower := by decide +kernel
  have assigned (axis : Output) : ∃ sum, .assign axis sum ∈ tower := by
    cases axis with
    | dx => exact ⟨0, by decide⟩
    | dy => exact ⟨0, by decide⟩
  have planned :
      Blueprint.initial.performAll? tower = some towerPlan := by decide +kernel
  have succeeds :
      ((tower.mapM perform).run initial).1.toBool = true := by decide +kernel
  have counted : ((tower.mapM perform).run initial).2.programmer.nextNeuron <
      0x80000000 := by
    decide +kernel
  rcases ran : (tower.mapM perform).run initial with ⟨outcome, session⟩
  rw [ran] at succeeds counted
  dsimp only at succeeds counted
  cases outcome with
  | error fault => cases succeeds
  | ok answers =>
      obtain ⟨blueprint, network, performed, -, -, sums, made, drawn,
        outputs, -⟩ :=
        handles_mean tower ran admitted assigned counted
      rw [planned] at performed
      cases performed
      rw [show towerPlan.sums.map Int.ofNat = [8, 11] from rfl] at sums
      exact ⟨admitted, assigned, answers, session, network, rfl, counted, sums,
        made, drawn, (Option.some.inj (outputs .dx)).symm,
        (Option.some.inj (outputs .dy)).symm⟩

end Session

end NeuralGenome
