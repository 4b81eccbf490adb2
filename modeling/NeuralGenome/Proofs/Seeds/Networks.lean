import NeuralGenome.Proofs.Agent.Course
import NeuralGenome.Proofs.Layered.Meaning
import NeuralGenome.Proofs.Layered.Totality
import NeuralGenome.Seeds

/-!
# The networks of the seeds

A perceptron has five inputs, and on each axis five weighted copies of them and
their sum. The seed that heads for a target through maxima and minima has seven
neurons on each axis. Both are written without a fault as long as their numbers
have patterns, and both become the networks that they spell.
-/

namespace NeuralGenome

namespace Seeds

/-! ## Perceptrons -/

/-- What the inputs of a perceptron are. -/
def inputOrigins : List Origin :=
  [.x, .y, .constant .one, .random, .random]

/--
What the neurons of one axis of a perceptron are for, of which the first has a
given handle.
-/
def axisOrigins (first : Nat) (weights : List Binary64) : List Origin :=
  List.zipWith .child (List.range 5) weights ++ [.total (List.range' first 5)]

/-- What the neurons of a perceptron are for. -/
def perceptronPlan (dxWeights dyWeights : List Binary64) : Blueprint where
  origins := inputOrigins ++ axisOrigins 5 dxWeights ++ axisOrigins 11 dyWeights
  layers := []
  sums := []
  dx := some 10
  dy := some 16

theorem length_axisOrigins {weights : List Binary64} (long : weights.length = 5)
    (first : Nat) : (axisOrigins first weights).length = 6 := by
  rw [axisOrigins, List.length_append, List.length_zipWith, long]
  rfl

/-- One axis of a perceptron is written when its weights have patterns. -/
theorem exists_run_axis {before : Programmer} {origins : List Origin}
    {output : Output → Option Nat} (realizes : before.Realizes origins output)
    (room : 5 ≤ origins.length) (few : origins.length ≤ 100)
    {weights : List Number} {values : List Binary64} (long : weights.length = 5)
    (converts : weights.mapM Number.toBinary64 = .ok values) (axis : Output) :
    values.length = 5 ∧ ∃ layer neuron middle later after,
      (Programmer.weighted ((List.range 5).map Int.ofNat) weights).run before =
        (.ok layer, middle) ∧
      (Programmer.sum layer).run middle = (.ok neuron, later) ∧
      (Programmer.assign axis neuron).run later = (.ok (), after) ∧
      after.Realizes (origins ++ axisOrigins origins.length values) fun other =>
        if other = axis then some (origins.length + 5) else output other := by
  have inside : ∀ parent ∈ List.range 5, parent < origins.length :=
    fun parent member => Nat.lt_of_lt_of_le (List.mem_range.mp member) room
  have indexed : ∀ parent ∈ List.range 5, parent < 0x80000000 :=
    fun parent member => Nat.lt_trans (List.mem_range.mp member) (by decide)
  obtain ⟨sized, middle, weighted, grown⟩ :=
    realizes.exists_weighted inside indexed converts long
  rw [List.length_range] at sized
  have children :
      (List.zipWith Origin.child (List.range 5) values).length = 5 := by
    rw [List.length_zipWith, sized]
    rfl
  have counted :
      (origins ++ List.zipWith Origin.child (List.range 5) values).length =
        origins.length + 5 := by rw [List.length_append, children]
  have insideToo : ∀ neuron ∈ List.range' origins.length 5,
      neuron < (origins ++ List.zipWith Origin.child (List.range 5)
        values).length := by
    intro neuron member
    rw [counted]
    exact (List.mem_range'_1.mp member).2
  have indexedToo : ∀ neuron ∈ List.range' origins.length 5,
      neuron < 0x80000000 := by
    intro neuron member
    have last := (List.mem_range'_1.mp member).2
    omega
  obtain ⟨later, summed, grownToo⟩ := grown.exists_sum insideToo indexedToo
  rw [counted] at summed
  rw [List.append_assoc] at grownToo
  have fresh : origins.length + 5 <
      (origins ++ axisOrigins origins.length values).length := by
    rw [List.length_append, length_axisOrigins sized]
    omega
  obtain ⟨after, assigned, reached⟩ :=
    Programmer.Realizes.exists_assign grownToo fresh (by omega) axis
  exact ⟨sized, _, _, middle, later, after, weighted, summed, assigned, reached⟩

variable {dxWeights dyWeights : List Number} {dxValues dyValues : List Binary64}

/-- The inputs of a perceptron are written. -/
theorem exists_run_inputs :
    ∃ (first second third : Programmer) (layer layer' : Layer),
      (Programmer.withConstant (Programmer.withY (Programmer.withX []))
        (.pattern .one)).run .initial = (.ok layer, first) ∧
      (Programmer.withRandom layer).run first = (.ok layer', second) ∧
      (Programmer.withRandom layer').run second =
        (.ok ((List.range 5).map Int.ofNat), third) ∧
      third.Realizes inputOrigins Blueprint.initial.output := by
  obtain ⟨first, constant, realizes⟩ :=
    Programmer.Realizes.initial.exists_constant (Number.toBinary64_pattern .one)
  obtain ⟨second, random, realizes⟩ := realizes.exists_random
  obtain ⟨third, randomToo, realizes⟩ := realizes.exists_random
  exact ⟨first, second, third, _, _,
    Procedure.run_bind_eq_ok.mpr ⟨_, _, constant, rfl⟩,
    Procedure.run_bind_eq_ok.mpr ⟨_, _, random, rfl⟩,
    Procedure.run_bind_eq_ok.mpr ⟨_, _, randomToo, rfl⟩, realizes⟩

/--
A perceptron of weights that have patterns is written, and realizes its plan.
-/
theorem exists_run_writePerceptrons (dxLong : dxWeights.length = 5)
    (dyLong : dyWeights.length = 5)
    (convertsDx : dxWeights.mapM Number.toBinary64 = .ok dxValues)
    (convertsDy : dyWeights.mapM Number.toBinary64 = .ok dyValues) :
    (perceptronPlan dxValues dyValues).origins.length = 17 ∧
      ∃ programmer, (writePerceptrons dxWeights dyWeights).run .initial =
          (.ok (), programmer) ∧
        programmer.Realizes (perceptronPlan dxValues dyValues).origins
          (perceptronPlan dxValues dyValues).output := by
  obtain ⟨first, second, third, _, _, constant, random, randomToo, realizes⟩ :=
    exists_run_inputs
  obtain ⟨dxSized, _, _, _, _, _, weighted, summed, assigned, realizes⟩ :=
    exists_run_axis realizes (by decide) (by decide) dxLong convertsDx .dx
  have counted :
      (inputOrigins ++ axisOrigins inputOrigins.length dxValues).length =
        11 := by
    rw [List.length_append, length_axisOrigins dxSized]
    rfl
  obtain ⟨dySized, _, _, _, _, after, weighted', summed', assigned',
    realizes⟩ :=
    exists_run_axis realizes (by rw [counted]; decide)
      (by rw [counted]; decide) dyLong convertsDy .dy
  rw [counted] at realizes
  refine ⟨?_, after, ?_, ?_⟩
  · show ((inputOrigins ++ axisOrigins inputOrigins.length dxValues) ++
      axisOrigins 11 _).length = 17
    rw [List.length_append, counted, length_axisOrigins dySized]
  · rw [writePerceptrons, Procedure.run_bind_of_ok constant,
      Procedure.run_bind_of_ok random, Procedure.run_bind_of_ok randomToo,
      Procedure.run_bind_of_ok weighted, Procedure.run_bind_of_ok summed,
      Procedure.run_bind_of_ok assigned, Procedure.run_bind_of_ok weighted',
      Procedure.run_bind_of_ok summed']
    exact assigned'
  · have outputs : (perceptronPlan dxValues dyValues).output = fun other =>
        if other = .dy then some (11 + 5)
        else if other = .dx then some (inputOrigins.length + 5)
        else Blueprint.initial.output other := by
      funext axis
      cases axis <;> rfl
    rw [outputs]
    exact realizes

/-- A perceptron compiles to the network of its plan. -/
theorem exists_perceptrons_network (dxLong : dxWeights.length = 5)
    (dyLong : dyWeights.length = 5)
    (convertsDx : dxWeights.mapM Number.toBinary64 = .ok dxValues)
    (convertsDy : dyWeights.mapM Number.toBinary64 = .ok dyValues) :
    ∃ program network, perceptrons dxWeights dyWeights = .ok program ∧
      program.compiled.network = .ok network ∧
      network.neurons =
        (perceptronPlan dxValues dyValues).origins.map Origin.linked ∧
      network.dx = 10 ∧ network.dy = 16 := by
  obtain ⟨sized, programmer, ran, realizes⟩ :=
    exists_run_writePerceptrons dxLong dyLong convertsDx convertsDy
  have designated (axis : Output) :
      ((perceptronPlan dxValues dyValues).output axis).isSome := by
    cases axis <;> rfl
  obtain ⟨network, made, drawn, outputs⟩ :=
    (realizes.graph (by rw [sized]; decide)).exists_network
      programmer.program.sound_compiled designated
  refine ⟨programmer.program, network, ?_, made, drawn, ?_, ?_⟩
  · rw [perceptrons, ran]
    rfl
  · exact (Option.some.inj (outputs .dx)).symm
  · exact (Option.some.inj (outputs .dy)).symm

/-! ## Maxima and minima -/

/--
The neurons that head for a target on an axis, the first of which has a given
position.
-/
def clampEntries (input : Nat) (target : Binary64) (first : Nat) : List Entry :=
  [⟨.fixed target, []⟩, ⟨.weightedSum .minusOne, [input]⟩,
    ⟨.sum, [first + 1, first]⟩, ⟨.fixed .minusOne, []⟩,
    ⟨.maximum, [first + 3, first + 2]⟩, ⟨.fixed .one, []⟩,
    ⟨.minimum, [first + 5, first + 4]⟩]

/--
The calls that head for a target on an axis, when the target is given by its
pattern.
-/
def clampCalls (output : Output) (input : Nat) (target : Binary64)
    (first : Nat) : List Call :=
  (clampEntries input target first).flatMap Entry.calls ++
    [.assign output (first + 6 : Nat)]

/-- The neurons of one axis in the network. -/
def clampNeurons (input : Nat) (target : Binary64) (first : Nat) :
    List LinkedNeuron :=
  (clampEntries input target first).map Entry.linked

/-- The network that heads for a target through maxima and minima. -/
def clampNetwork (x y : Binary64) : Network where
  neurons := [⟨⟨.inputX, .zero⟩, []⟩, ⟨⟨.inputY, .zero⟩, []⟩] ++
    clampNeurons 0 x 2 ++ clampNeurons 1 y 9
  dx := 8
  dy := 15

theorem isIndexed_clampCalls {input first : Nat} (inputFew : input < 100)
    (firstFew : first < 100) (output : Output) (target : Binary64) :
    ∀ call ∈ clampCalls output input target first, call.IsIndexed := by
  intro call member
  rcases List.mem_append.mp member with created | assigned
  · obtain ⟨entry, listed, among⟩ := List.mem_flatMap.mp created
    rcases List.mem_cons.mp among with rfl | read
    · trivial
    · obtain ⟨parent, inside, rfl⟩ := List.mem_map.mp read
      refine Programmer.isIndexed_handle ?_
      simp only [clampEntries, List.mem_cons, List.not_mem_nil, or_false]
        at listed
      rcases listed with rfl | rfl | rfl | rfl | rfl | rfl | rfl <;>
        simp at inside <;> omega
  · cases List.mem_singleton.mp assigned
    exact Programmer.isIndexed_handle (by omega)

/--
The calls of an axis add its neurons and let the last answer for the axis.
-/
theorem spells_clampCalls {graph : Graph} {neurons : List LinkedNeuron}
    {output : Output → Option Int} (spells : graph.Spells neurons output)
    {input : Nat}
    (inside : input < neurons.length) (target : Binary64) (axis : Output) :
    (graph.receiveAll (clampCalls axis input target neurons.length)).Spells
      (neurons ++ clampNeurons input target neurons.length)
      fun other => if other =
        axis then some (neurons.length + 6 : Nat) else output other := by
  have earlier : ∀ (place : Nat) (entry : Entry),
      (clampEntries input target neurons.length)[place]? = some entry →
        ∀ parent ∈ entry.parents, parent < neurons.length + place := by
    intro place entry found
    match place with
    | 0 | 1 | 2 | 3 | 4 | 5 | 6 =>
        cases found
        intro parent member
        simp at member <;> omega
    | later + 7 => cases found
  have grown := spells.createAll earlier
  have fresh : neurons.length + 6 <
    (neurons ++ (clampEntries input target neurons.length).map
      Entry.linked).length := by
    rw [List.length_append]
    exact Nat.add_lt_add_left (by decide : 6 < 7) _
  rw [clampCalls, Graph.receiveAll_append]
  exact grown.assign fresh axis

/-- Calls that have the same genes are recorded alike. -/
theorem recordAll_congr {calls others : List NumericCall}
    (same : calls.map Recorder.gene = others.map Recorder.gene) :
    Recorder.recordAll calls = Recorder.recordAll others := by
  induction calls generalizing others with
  | nil =>
      rw [List.map_eq_nil_iff.mp same.symm]
  | cons call rest ih =>
      cases others with
      | nil => cases same
      | cons other others =>
          obtain ⟨first, later⟩ := List.cons.inj same
          rw [Recorder.recordAll, Recorder.recordAll, Recorder.record,
            Recorder.record, first, ih later]

/-- A target counts only by its pattern. -/
theorem map_gene_axisCalls {target : Int} {pattern : Binary64}
    (converts : (whole target).toBinary64 = .ok pattern) (output : Output)
    (input first : Nat) :
    (axisCalls output input target first).map Recorder.gene =
      ((clampCalls output input pattern first).map Call.numeric).map
        Recorder.gene := by
  have constant : Recorder.gene (.create (.fixed (whole target))) =
      Recorder.gene (.create (.fixed (.pattern pattern))) := by
    rw [Recorder.gene, Recorder.gene, Instruction.convert, Instruction.convert,
      Neuron.convert, Neuron.convert, converts, Number.toBinary64_pattern]
  exact congrArg (· :: _) constant

/-- What is recorded for a target is its program. -/
theorem moveToward_of_run {target : Position} {program : Program}
    (recorded : (Recorder.recordAll (axisCalls .dx xNeuron target.x 2 ++
      axisCalls .dy yNeuron target.y 9)).run [] = (.ok (), program)) :
    moveToward target = .ok program := by
  -- unfolded as a function: applied to a target, it would be checked by
  -- computing patterns
  obtain ⟨seed, same⟩ : ∃ seed, seed = moveToward := ⟨_, rfl⟩
  rw [← same]
  delta moveToward at same
  rw [same]
  beta_reduce
  generalize axisCalls .dx xNeuron target.x 2 ++ axisCalls .dy yNeuron target.y
    9 = calls at recorded ⊢
  conv => lhs; zeta
  rw [recorded]
  rfl

theorem exists_moveToward_network {target : Position} {x y : Binary64}
    (convertsX : (whole target.x).toBinary64 = .ok x)
    (convertsY : (whole target.y).toBinary64 = .ok y) :
    ∃ program, moveToward target = .ok program ∧
      program.compiled.network = .ok (clampNetwork x y) := by
  have indexed : ∀ call ∈ clampCalls .dx 0 x 2 ++ clampCalls .dy 1 y 9,
      call.IsIndexed :=
    List.forall_mem_append.mpr
      ⟨isIndexed_clampCalls (by decide) (by decide) .dx x,
      isIndexed_clampCalls (by decide) (by decide) .dy y⟩
  obtain ⟨program, recorded, calls⟩ := Recorder.exists_run_recordAll indexed []
  have xGenes : (axisCalls .dx xNeuron target.x 2).map Recorder.gene =
      ((clampCalls .dx 0 x 2).map Call.numeric).map Recorder.gene :=
    map_gene_axisCalls convertsX .dx 0 2
  have yGenes : (axisCalls .dy yNeuron target.y 9).map Recorder.gene =
      ((clampCalls .dy 1 y 9).map Call.numeric).map Recorder.gene :=
    map_gene_axisCalls convertsY .dy 1 9
  refine ⟨program, moveToward_of_run ?_,
    Graph.Spells.network_eq program.sound_compiled ?_⟩
  · rw [← List.nil_append program, ← recorded]
    refine congrArg (Procedure.run · []) (recordAll_congr ?_)
    rw [List.map_append, List.map_append, List.map_append, xGenes, yGenes]
  · have first := spells_clampCalls Graph.spells_initial Nat.zero_lt_two x .dx
    have second := spells_clampCalls first (Nat.one_lt_ofNat : 1 < 9) y .dy
    have outputs : (fun axis => some ((clampNetwork x y).output axis)) =
      fun axis : Output =>
        if axis = .dy then some ((9 + 6 : Nat) : Int)
        else if axis = .dx then some ((2 + 6 : Nat) : Int) else none := by
      funext axis
      cases axis <;> rfl
    rw [Program.compiled, calls, Graph.receiveAll_append, outputs]
    exact second

end Seeds

end NeuralGenome
