import NeuralGenome.Proofs.Seeds.Networks

/-!
# Seeds that head for a target

A perceptron that weighs its random inputs with zero asks, on each axis, for the
sign of a linear function of the position.  The seed of maxima and minima cuts
the same difference to one step before it is rounded, which does not change its
sign.  So both head for their target in the same way, and arrive.
-/

namespace NeuralGenome

open ListPosition (Within)

namespace Seeds

/-! ## What an axis emits -/

section Axis

variable {network : Network} {memory : Memory} {draws after : List Binary64}

/-- A draw that is missing counts as zero. -/
theorem isFraction_getD (fractions : ∀ draw ∈ draws, draw.IsFraction)
    (turn : Nat) : (draws.getD turn .zero).IsFraction := by
  rw [List.getD_eq_getElem?_getD]
  cases found : draws[turn]? with
  | none => exact (by decide : Binary64.zero.IsFraction)
  | some draw => exact fractions draw (List.mem_of_getElem? found)

/-- The signals of the inputs of a perceptron. -/
structure Senses (after : List Binary64) (position : Position) : Prop where
  x : (after.getD 0 .zero).Denotes position.x
  y : (after.getD 1 .zero).Denotes position.y
  one : (after.getD 2 .zero).Denotes 1
  random : (after.getD 3 .zero).IsFraction
  other : (after.getD 4 .zero).IsFraction

/--
An input of a perceptron emits its signal, which depends on no other neuron.
-/
theorem input_emits (settles : network.Settles memory draws after)
    (inputs : ∀ (place : Nat) (origin : Origin),
      inputOrigins[place]? = some origin →
      network.neurons[place]? = some origin.linked)
    {place : Nat} {origin : Origin} (found : inputOrigins[place]? = some origin)
    (orphan : origin.linked.links = []) :
    after.getD place .zero =
      origin.linked.signal memory (draws.getD (network.turn place) .zero)
        [] := by
  rw [settles.emits (inputs place origin found) (by simp [orphan]), orphan,
    List.map_nil]

/-- The five inputs of a perceptron emit the position, one, and two draws. -/
theorem senses (settles : network.Settles memory draws after)
    (inputs : ∀ (place : Nat) (origin : Origin),
      inputOrigins[place]? = some origin →
      network.neurons[place]? = some origin.linked)
    (fractions : ∀ draw ∈ draws, draw.IsFraction) {position : Position}
    (denotesX : memory.x.Denotes position.x)
    (denotesY : memory.y.Denotes position.y) : Senses after position := by
  constructor
  · rw [input_emits settles inputs (rfl : inputOrigins[0]? = some .x) rfl]
    exact denotesX
  · rw [input_emits settles inputs (rfl : inputOrigins[1]? = some .y) rfl]
    exact denotesY
  · rw [input_emits settles inputs
      (rfl : inputOrigins[2]? = some (.constant .one)) rfl]
    exact Binary64.denotes_one
  · rw [input_emits settles inputs (rfl : inputOrigins[3]? = some .random) rfl]
    exact isFraction_getD fractions _
  · rw [input_emits settles inputs (rfl : inputOrigins[4]? = some .random) rfl]
    exact isFraction_getD fractions _

/-- An axis adds up its weighted inputs. -/
theorem axis_emits (settles : network.Settles memory draws after) {first : Nat}
    (room : 5 ≤ first) {a b c d e : Binary64}
    (found : ∀ (place : Nat) (origin : Origin),
      (axisOrigins first [a, b, c, d, e])[place]? = some origin →
        network.neurons[first + place]? = some origin.linked) :
    after.getD (first + 5) .zero =
      Binary64.sum [(Binary64.sum [after.getD 0 .zero]).mul a,
        (Binary64.sum [after.getD 1 .zero]).mul b,
        (Binary64.sum [after.getD 2 .zero]).mul c,
        (Binary64.sum [after.getD 3 .zero]).mul d,
        (Binary64.sum [after.getD 4 .zero]).mul e] := by
  have child {place : Nat} {weight : Binary64} (few : place < 5)
      (here : (axisOrigins first [a, b, c, d, e])[place]? =
        some (.child place weight)) :
      after.getD (first + place) .zero =
        (Binary64.sum [after.getD place .zero]).mul weight := by
    refine settles.emits (found place _ here)
      (List.forall_mem_singleton.mpr ⟨?_, ?_⟩)
    · exact Int.natCast_nonneg place
    · exact Int.ofNat_lt.mpr (by omega)
  have summed : after.getD (first + 5) .zero =
      Binary64.sum [after.getD (first + 0) .zero, after.getD (first + 1) .zero,
        after.getD (first + 2) .zero, after.getD (first + 3) .zero,
        after.getD (first + 4) .zero] := by
    refine settles.emits (found 5 _ rfl) fun link member => ?_
    obtain ⟨neuron, inside, rfl⟩ := List.mem_map.mp member
    exact ⟨Int.natCast_nonneg neuron,
      Int.ofNat_lt.mpr (List.mem_range'_1.mp inside).2⟩
  rw [summed, child (by decide) rfl, child (by decide) rfl,
    child (by decide) rfl, child (by decide) rfl, child (by decide) rfl]

/--
With weights of zero on the random inputs an axis is linear in the position.
-/
theorem axis_denotes (settles : network.Settles memory draws after)
    {position : Position}
    (senses : Senses after position) (near : position.IsNear) {first : Nat}
    (room : 5 ≤ first) {weights : List Binary64} {wx wy wc : Int}
    (denote : List.Forall₂ Binary64.Denotes weights [wx, wy, wc, 0, 0])
    (found : ∀ (place : Nat) (origin : Origin),
      (axisOrigins first weights)[place]? = some origin →
      network.neurons[first + place]? = some origin.linked)
    (short : (position.x * wx).natAbs + (position.y * wy).natAbs + wc.natAbs <
      0x20000000000000) :
    (after.getD (first + 5) .zero).Denotes
      (position.x * wx + position.y * wy + wc) := by
  simp only [List.forall₂_cons_right_iff, List.forall₂_nil_right_iff] at denote
  obtain ⟨a, _, denotesA, ⟨b, _, denotesB, ⟨c, _, denotesC, ⟨d, _, denotesD,
    ⟨e, _, denotesE, rfl, rfl⟩, rfl⟩, rfl⟩, rfl⟩, rfl⟩ := denote
  obtain ⟨nearX, nearY⟩ := near
  have total :
      ([position.x * wx, position.y * wy, 1 * wc, 0, 0] : List Int).sum =
        position.x * wx + position.y * wy + wc := by
    simp only [List.sum_cons, List.sum_nil]
    omega
  rw [axis_emits settles room found, ← total]
  refine Binary64.Denotes.sum
    (.cons (senses.x.weigh denotesA (by omega) (by omega))
      (.cons (senses.y.weigh denotesB (by omega) (by omega))
        (.cons (senses.one.weigh denotesC (by decide) (by omega))
          (.cons (senses.random.weigh denotesD)
            (.cons (senses.other.weigh denotesE) .nil)))))
    (by simp) ?_
  simp only [List.map_cons, List.map_nil, List.sum_cons, List.sum_nil]
  omega

/-- Cut to one step either way, a number keeps its sign. -/
theorem sign_clamp (value : Int) :
    (min 1 (max (-1) value)).sign = value.sign := by
  rcases Int.lt_trichotomy value 0 with negative | rfl | positive
  · rw [Int.sign_eq_neg_one_of_neg negative,
      Int.sign_eq_neg_one_of_neg (by omega)]
  · rfl
  · rw [Int.sign_eq_one_of_pos positive, Int.sign_eq_one_of_pos (by omega)]

/--
An axis of maxima and minima asks for the sign of the difference between target
and input.
-/
theorem clamp_unitStep (settles : network.Settles memory draws after)
    {input first : Nat}
    (inside : input < first) {target : Binary64} {coordinate goal : Int}
    (near : coordinate.natAbs ≤ 0x8000000000000)
    (nearToo : goal.natAbs ≤ 0x8000000000000)
    (found : ∀ (place : Nat) (neuron : LinkedNeuron),
      (clampNeurons input target first)[place]? = some neuron →
        network.neurons[first + place]? = some neuron)
    (senses : (after.getD input .zero).Denotes coordinate)
    (denotes : target.Denotes goal) :
    (after.getD (first + 6) .zero).unitStep = (goal - coordinate).sign := by
  have emits (place : Nat) (entry : Entry)
      (here : (clampNeurons input target first)[place]? = some entry.linked)
      (back : ∀ parent ∈ entry.parents, parent < first + place) :
      after.getD (first + place) .zero =
        entry.linked.signal memory
          (draws.getD (network.turn (first + place)) .zero)
          (entry.parents.map fun parent => after.getD parent .zero) := by
    refine (settles.emits (found place _ here) fun link member => ?_).trans ?_
    · obtain ⟨parent, inside, rfl⟩ := List.mem_map.mp member
      exact ⟨Int.natCast_nonneg parent, Int.ofNat_lt.mpr (back parent inside)⟩
    · rw [Entry.linked, List.map_map]
      rfl
  have constant : (after.getD (first + 0) .zero).Denotes goal := by
    rw [emits 0 ⟨.fixed target, []⟩ rfl (by simp)]
    exact denotes
  have negated : (after.getD (first + 1) .zero).Denotes (coordinate * -1) := by
    rw [emits 1 ⟨.weightedSum .minusOne, [input]⟩ rfl (by simp; omega)]
    exact senses.weigh Binary64.denotes_minusOne (by omega) (by omega)
  have difference :
      (after.getD (first + 2) .zero).Denotes (goal - coordinate) := by
    rw [emits 2 ⟨.sum, [first + 1, first]⟩ rfl (by simp)]
    have sum := Binary64.Denotes.sum (.cons negated (.cons constant .nil))
      (by simp) (by
      simp only [List.map_cons, List.map_nil, List.sum_cons, List.sum_nil]
      omega)
    have total : [coordinate * -1, goal].sum = goal - coordinate := by
      simp only [List.sum_cons, List.sum_nil]
      omega
    rwa [total] at sum
  have least : (after.getD (first + 3) .zero).Denotes (-1) := by
    rw [emits 3 ⟨.fixed .minusOne, []⟩ rfl (by simp)]
    exact Binary64.denotes_minusOne
  have raised : (after.getD (first + 4) .zero).Denotes
      (max (-1) (goal - coordinate)) := by
    rw [emits 4 ⟨.maximum, [first + 3, first + 2]⟩ rfl (by simp)]
    exact least.greater difference
  have greatest : (after.getD (first + 5) .zero).Denotes 1 := by
    rw [emits 5 ⟨.fixed .one, []⟩ rfl (by simp)]
    exact Binary64.denotes_one
  have cut : (after.getD (first + 6) .zero).Denotes
      (min 1 (max (-1) (goal - coordinate))) := by
    rw [emits 6 ⟨.minimum, [first + 5, first + 4]⟩ rfl (by simp)]
    exact greatest.lesser raised
  rw [cut.unitStep, sign_clamp]

end Axis

/-! ## What the networks steer -/

section Parts

variable {Element : Type} {before part after : List Element} {place : Nat}
  {element : Element}

theorem getElem?_last (before : List Element)
    (found : part[place]? = some element) :
    (before ++ part)[before.length + place]? = some element := by
  rw [List.getElem?_append_right (Nat.le_add_right _ _),
    Nat.add_sub_cancel_left, found]

theorem getElem?_middle (before : List Element)
    (found : part[place]? = some element) :
    (before ++ part ++ after)[before.length + place]? = some element := by
  have there := getElem?_last before found
  rw [List.getElem?_append_left (List.getElem?_eq_some_iff.mp there).1, there]

end Parts

/-- Where the inputs and both axes of a perceptron stand in its network. -/
theorem perceptron_parts {network : Network}
    {dxWeights dyWeights : List Binary64}
    (drawn : network.neurons =
      (perceptronPlan dxWeights dyWeights).origins.map Origin.linked)
    (long : dxWeights.length = 5) :
    (∀ (place : Nat) (origin : Origin), inputOrigins[place]? = some origin →
      network.neurons[place]? = some origin.linked) ∧
    (∀ (place : Nat) (origin : Origin),
      (axisOrigins 5 dxWeights)[place]? = some origin →
      network.neurons[5 + place]? = some origin.linked) ∧
    ∀ (place : Nat) (origin : Origin),
      (axisOrigins 11 dyWeights)[place]? = some origin →
      network.neurons[11 + place]? = some origin.linked := by
  have neuron {place : Nat} {origin : Origin}
      (found : (perceptronPlan dxWeights dyWeights).origins[place]? =
        some origin) :
      network.neurons[place]? = some origin.linked := by
    rw [drawn, List.getElem?_map, found]
    rfl
  have counted : (inputOrigins ++ axisOrigins 5 dxWeights).length = 11 := by
    rw [List.length_append, length_axisOrigins long]
    rfl
  refine ⟨fun place origin found => neuron ?_, fun place origin found =>
    neuron ?_,
    fun place origin found => neuron ?_⟩
  · rw [perceptronPlan, List.append_assoc, List.getElem?_append_left
      (List.getElem?_eq_some_iff.mp found).1]
    exact found
  · exact getElem?_middle inputOrigins found
  · have there := getElem?_last (inputOrigins ++ axisOrigins 5 dxWeights) found
    rwa [counted] at there

/--
A perceptron whose random inputs have no weight makes moves of a linear course.
-/
theorem steers_perceptron {network : Network}
    {dxWeights dyWeights : List Binary64}
    (drawn : network.neurons =
      (perceptronPlan dxWeights dyWeights).origins.map Origin.linked)
    (dx : network.dx = 10) (dy : network.dy = 16) {a b c a' b' c' : Int}
    (denoteDx : List.Forall₂ Binary64.Denotes dxWeights [a, b, c, 0, 0])
    (denoteDy : List.Forall₂ Binary64.Denotes dyWeights [a', b', c', 0, 0])
    (short : ∀ position : Position, position.IsNear →
      (position.x * a).natAbs + (position.y * b).natAbs + c.natAbs <
        0x20000000000000 ∧
        (position.x * a').natAbs + (position.y * b').natAbs + c'.natAbs <
          0x20000000000000) :
    network.Steers fun position =>
      ⟨(position.x * a + position.y * b + c).sign,
        (position.x * a' + position.y * b' + c').sign⟩ := by
  obtain ⟨inputs, dxAxis, dyAxis⟩ := perceptron_parts drawn denoteDx.length_eq
  intro position memory draws after near denotesX denotesY fractions settles
  have senses := senses settles inputs fractions denotesX denotesY
  obtain ⟨dxShort, dyShort⟩ := short position near
  have dxSignal :=
    axis_denotes settles senses near (Nat.le_refl 5) denoteDx dxAxis dxShort
  have dySignal :=
    axis_denotes settles senses near (by decide : 5 ≤ 11) denoteDy
      dyAxis dyShort
  rw [dx, dy]
  exact ⟨dxSignal.unitStep, dySignal.unitStep⟩

theorem steers_clampNetwork {target : Position} (nearToo : target.IsNear)
    {x y : Binary64}
    (denotesX : x.Denotes target.x) (denotesY : y.Denotes target.y) :
    (clampNetwork x y).Steers fun position => position.stepTo target := by
  intro position memory draws after near boundX boundY fractions settles
  have sensesX : (after.getD 0 .zero).Denotes position.x := by
    rw [settles.emits
      (rfl : (clampNetwork x y).neurons[0]? = some ⟨⟨.inputX, .zero⟩, []⟩)
      (by simp)]
    exact boundX
  have sensesY : (after.getD 1 .zero).Denotes position.y := by
    rw [settles.emits
      (rfl : (clampNetwork x y).neurons[1]? = some ⟨⟨.inputY, .zero⟩, []⟩)
      (by simp)]
    exact boundY
  refine ⟨clamp_unitStep settles (by decide : 0 < 2) near.1 nearToo.1 ?_ sensesX
      denotesX,
    clamp_unitStep settles (by decide : 1 < 9) near.2 nearToo.2 ?_ sensesY
      denotesY⟩
  · exact fun place neuron found => getElem?_middle _ found
  · exact fun place neuron found =>
      getElem?_last (_ ++ clampNeurons 0 x 2) found

/-! ## The agents of the seeds -/

/-- The agent that is made of a seed. -/
def agent (seed : Except Fault Program) : Except Fault Agent := do
  Agent.create (.ofProgram (← seed))

theorem exists_whole_values {numbers : List Int}
    (short : ∀ number ∈ numbers, number.natAbs < 0x20000000000000) :
    ∃ values, (numbers.map whole).mapM Number.toBinary64 = .ok values ∧
      List.Forall₂ Binary64.Denotes values numbers := by
  induction numbers with
  | nil => exact ⟨[], rfl, .nil⟩
  | cons number rest ih =>
      obtain ⟨here, others⟩ := List.forall_mem_cons.mp short
      obtain ⟨value, nearest, denotes⟩ := Binary64.exists_denotes here
      obtain ⟨values, converted, denote⟩ := ih others
      refine ⟨value :: values, ?_, .cons denotes denote⟩
      rw [List.map_cons, List.mapM_cons, whole, nearest, converted]
      rfl

/-- A perceptron of five integer weights on each axis, and its network. -/
theorem exists_whole_perceptron {dxNumbers dyNumbers : List Int}
    (dxLong : dxNumbers.length = 5) (dyLong : dyNumbers.length = 5)
    (dxShort : ∀ weight ∈ dxNumbers, weight.natAbs < 0x20000000000000)
    (dyShort : ∀ weight ∈ dyNumbers, weight.natAbs < 0x20000000000000) :
    ∃ program network dxValues dyValues,
      perceptrons (dxNumbers.map whole) (dyNumbers.map whole) = .ok program ∧
      program.compiled.network = .ok network ∧
      network.neurons =
        (perceptronPlan dxValues dyValues).origins.map Origin.linked ∧
      network.dx = 10 ∧ network.dy = 16 ∧
      List.Forall₂ Binary64.Denotes dxValues dxNumbers ∧
      List.Forall₂ Binary64.Denotes dyValues dyNumbers := by
  obtain ⟨dxValues, convertsDx, denoteDx⟩ := exists_whole_values dxShort
  obtain ⟨dyValues, convertsDy, denoteDy⟩ := exists_whole_values dyShort
  obtain ⟨program, network, written, made, drawn, dx, dy⟩ :=
    exists_perceptrons_network ((List.length_map _).trans dxLong)
      ((List.length_map _).trans dyLong) convertsDx convertsDy
  exact ⟨program, network, dxValues, dyValues, written, made, drawn, dx, dy,
    denoteDx, denoteDy⟩

/--
A perceptron of integer weights, none on the random inputs, follows a linear
course.
-/
theorem exists_agent_perceptrons {a b c a' b' c' : Int}
    (dxShort : ∀ weight ∈ [a, b, c, 0, 0], weight.natAbs < 0x20000000000000)
    (dyShort : ∀ weight ∈ [a', b', c', 0, 0], weight.natAbs < 0x20000000000000)
    (short : ∀ position : Position, position.IsNear →
      (position.x * a).natAbs + (position.y * b).natAbs + c.natAbs <
        0x20000000000000 ∧
        (position.x * a').natAbs + (position.y * b').natAbs + c'.natAbs <
          0x20000000000000)
    {course : Position → Move}
    (linear : ∀ position : Position, course position =
      ⟨(position.x * a + position.y * b + c).sign,
        (position.x * a' + position.y * b' + c').sign⟩) :
    ∃ made, agent
      (perceptrons ([a, b, c, 0, 0].map whole) ([a', b', c', 0, 0].map whole)) =
        .ok made ∧
      made.Follows course ∧
      ∀ {target : Position}, target.IsNear →
        (course = fun position => position.stepTo target) →
        made.Arrives target := by
  obtain ⟨program, network, dxValues, dyValues, written, made, drawn, dx, dy,
    denoteDx, denoteDy⟩ := exists_whole_perceptron rfl rfl dxShort dyShort
  have steers : network.Steers course := by
    rw [funext linear]
    exact steers_perceptron drawn dx dy denoteDx denoteDy short
  obtain ⟨seed, created, follows, arrives⟩ := Agent.exists_create_follows made
  refine ⟨seed, ?_, follows steers, ?_⟩
  · rw [agent, written]
    exact created
  · rintro target near rfl
    exact arrives near steers

theorem exists_agent_positionMover {target : Position} (near : target.IsNear) :
    ∃ made, agent (positionMover target) = .ok made ∧
      (made.Follows fun position => position.stepTo target) ∧
        made.Arrives target := by
  obtain ⟨nearX, nearY⟩ := near
  obtain ⟨made, created, follows, arrives⟩ :=
    @exists_agent_perceptrons (-1) 0 target.x 0 (-1) target.y
      (by simp; omega) (by simp; omega)
      (fun position ⟨px, py⟩ => ⟨by omega, by omega⟩)
      (fun position => position.stepTo target)
      (fun position => by
        rw [Position.stepTo]
        congr 2 <;> omega)
  exact ⟨made, created, follows, arrives ⟨nearX, nearY⟩ rfl⟩

theorem exists_agent_moveToward {target : Position} (near : target.IsNear) :
    ∃ made, agent (moveToward target) = .ok made ∧
      (made.Follows fun position => position.stepTo target) ∧
        made.Arrives target := by
  obtain ⟨x, y, convertsX, convertsY, denotesX, denotesY⟩ :=
    near.exists_patterns
  obtain ⟨program, written, made⟩ :=
    exists_moveToward_network convertsX convertsY
  have steers := steers_clampNetwork near denotesX denotesY
  obtain ⟨seed, created, follows, arrives⟩ := Agent.exists_create_follows made
  refine ⟨seed, ?_, follows steers, arrives near steers⟩
  rw [agent, written]
  exact created

theorem exists_agent_cornerMover {target : Position} (near : target.IsNear)
    {width height : Int} (center : target = ⟨width.fdiv 2, height.fdiv 2⟩) :
    ∃ made, agent (cornerMover width height) = .ok made ∧
      made.Follows fun position => target.stepTo position := by
  obtain ⟨nearX, nearY⟩ := near
  obtain ⟨made, created, follows, -⟩ :=
    @exists_agent_perceptrons 1 0 (-target.x) 0 1 (-target.y) (by simp; omega)
      (by simp; omega) (fun position ⟨px, py⟩ => ⟨by omega, by omega⟩)
      (fun position => target.stepTo position)
      (fun position => by
        rw [Position.stepTo]
        congr 2 <;> omega)
  refine ⟨made, ?_, follows⟩
  rw [center] at created
  exact created

/--
Both ways to head for a target are the same, and they arrive.  Take a target
with coordinates of at most fifty-one bits.  The perceptron and the network of
maxima and minima that head for it are made, and at every such position,
whatever they were asked before and with all draws from zero to one, they decide
for the same move: one step toward the target on each axis on which they are
away from it.  So from every such position the path approaches the target by one
step at a time on each axis, is there after as many steps as the greater of both
distances, and no sooner, and stays.  The seed that heads for the center of a
grid does the same for that center, and the seed that heads for the corners
makes the opposite moves.
-/
theorem headings_arrive {target : Position} (near : target.IsNear) :
    (∀ seed ∈ [positionMover target, moveToward target],
      ∃ made, agent seed = .ok made ∧
        (made.Follows fun position => position.stepTo target) ∧
          made.Arrives target) ∧
      (∀ (position : Position) (steps : Nat),
        position.approach target steps = target ↔
          position.distance target ≤ steps) ∧
      ∀ width height : Int, target = ⟨width.fdiv 2, height.fdiv 2⟩ →
        (∃ made, agent (centerMover width height) = .ok made ∧
          (made.Follows fun position => position.stepTo target) ∧
            made.Arrives target) ∧
        ∃ made, agent (cornerMover width height) = .ok made ∧
          made.Follows fun position => target.stepTo position := by
  refine ⟨?_, fun position steps => Position.approach_eq_iff steps, ?_⟩
  · exact List.forall_mem_cons.mpr ⟨exists_agent_positionMover near,
      List.forall_mem_singleton.mpr (exists_agent_moveToward near)⟩
  · rintro width height rfl
    exact ⟨exists_agent_positionMover near, exists_agent_cornerMover near rfl⟩

/--
From two steps to the right of the center of a grid, with draws that are all one
half.
-/
theorem headings_arrive_grid :
    (⟨5, -3⟩ : Position).IsNear ∧
      DrawSource.Only Binary64.IsFraction (Script.ofList [.half]) ∧
      ∃ mover clamper corner,
        agent (centerMover 10 (-5)) = .ok mover ∧ agent (moveToward ⟨5, -3⟩) =
          .ok clamper ∧
        agent (cornerMover 10 (-5)) = .ok corner ∧
        ((Agent.walk ⟨7, -3⟩ 3).run (mover, Script.ofList [.half])).1 =
          .ok [⟨7, -3⟩, ⟨6, -3⟩, ⟨5, -3⟩, ⟨5, -3⟩] ∧
        ((Agent.walk ⟨7, -3⟩ 3).run (clamper, Script.ofList [.half])).1 =
          .ok [⟨7, -3⟩, ⟨6, -3⟩, ⟨5, -3⟩, ⟨5, -3⟩] ∧
        ((Agent.decide ⟨7, -3⟩).run (corner, Script.ofList [.half])).1 =
          .ok ⟨1, 0⟩ := by
  have near : (⟨5, -3⟩ : Position).IsNear := by decide
  have nearToo : (⟨7, -3⟩ : Position).IsNear := by decide
  have fractions :
      DrawSource.Only Binary64.IsFraction (Script.ofList [.half]) :=
    Script.only_of_forall (by decide) (by decide) 0
  obtain ⟨seeds, -, grids⟩ := headings_arrive near
  obtain ⟨clamper, created, -, arrives⟩ := seeds (moveToward ⟨5, -3⟩) (by simp)
  obtain ⟨⟨mover, createdToo, -, arrivesToo⟩, corner, createdLast, follows⟩ :=
    grids 10 (-5) rfl
  exact ⟨near, fractions, mover, clamper, corner, createdToo, created,
    createdLast, arrivesToo _ fractions [] _ nearToo 3,
    arrives _ fractions [] _ nearToo 3, follows _ fractions [] _ nearToo⟩

end Seeds

end NeuralGenome
