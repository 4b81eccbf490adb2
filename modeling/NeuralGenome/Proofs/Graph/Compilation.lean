import NeuralGenome.Proofs.Graph.Calls

/-!
# Compiling programs

A program asks for values that are patterns already, so none of its requests
fails and its graph is the sound graph `Program.compiled`.  A sound graph
becomes a network as soon as both outputs are designated, with the definitions,
lists of inputs and outputs of the graph; otherwise the outputs that are missing
are the only complaint.  An output is designated exactly when the program has
its opcode.
-/

namespace NeuralGenome

open ListPosition (Within)

/-! ## Requests of programs -/

theorem Call.isSome_created?_request (call : Call) :
    call.request.created?.isSome = call.opcode.creates := by
  cases call with
  | create neuron => cases neuron <;> rfl
  | moveTo index => rfl
  | readFrom index => rfl
  | assign output index => cases output <;> rfl

@[simp]
theorem Call.opcode_request (call : Call) : call.request.opcode = call.opcode :=
  Instruction.opcode_map _ _ call

namespace Program

/-- The graph that a program builds from the two inputs. -/
def compiled (program : Program) : Graph :=
  Graph.initial.receiveAll program.calls

theorem sound_compiled (program : Program) : program.compiled.Sound :=
  Graph.sound_initial.receiveAll program.calls

theorem build_eq (program : Program) :
    program.build = (.ok (), program.compiled) :=
  Graph.sound_initial.run_performAll_requests program.calls

theorem graph_eq (program : Program) :
    program.graph = .ok program.compiled := by
  rw [graph, build_eq]
  rfl

theorem network_eq (program : Program) :
    program.network = program.compiled.network := by
  rw [network, graph_eq]
  rfl

/-- What a program asks of the graph builder. -/
def requests (program : Program) : List Request :=
  program.calls.map Call.request

theorem afterAll_requests (program : Program) :
    Graph.initial.afterAll program.requests = program.compiled :=
  Graph.sound_initial.afterAll_requests program.calls

theorem map_opcode_requests (program : Program) :
    program.requests.map Instruction.opcode = program.opcodes := by
  rw [requests, calls, List.map_map, List.map_map]
  apply List.map_congr_left
  intro gene _
  simp only [Function.comp_apply, Call.opcode_request, Gene.call,
    Instruction.opcode_map]

/-- The graph of a program counts the inputs and the opcodes that create. -/
theorem count_compiled (program : Program) :
    program.compiled.count =
      reservedNeurons + program.opcodes.countP Opcode.creates := by
  rw [← afterAll_requests, Graph.count_afterAll,
    List.length_filterMap_eq_countP]
  congr 1
  rw [← map_opcode_requests, List.countP_map]
  rw [requests, List.countP_map, List.countP_map]
  apply List.countP_congr
  intro call _
  simp only [Function.comp_apply, Call.isSome_created?_request,
    Call.opcode_request]

end Program

namespace Graph

variable {graph : Graph}

/-! ## Designated outputs -/

/-- A request of another opcode leaves an output alone. -/
theorem output_after_of_opcode_ne (graph : Graph) {request : Request}
    {output : Output} (other : request.opcode ≠ output.opcode) :
    (graph.after request).output output = graph.output output := by
  cases asked : graph.edit request with
  | error fault => rw [after_of_edit_error asked]
  | ok edit =>
      rw [after_of_edit_ok asked]
      cases asks_of_edit asked with
      | create converted => cases output <;> rfl
      | moveTo resolved => cases output <;> rfl
      | readFrom located resolved => cases output <;> rfl
      | @assign designated =>
          cases designated <;> cases output <;>
            first | rfl | exact absurd rfl other

/-- An output is designated by the neuron that the address names. -/
theorem Sound.output_after_assign (sound : graph.Sound) (output : Output)
    (address : Address) :
    ∃ index, address.resolve graph = .ok index ∧
      (graph.after (.assign output address)).output output = some index := by
  obtain ⟨index, resolved, -⟩ := address.exists_resolve sound.count_pos
  have asked : graph.edit (.assign output address) =
      .ok (.designate output index) := by
    rw [edit, resolved]
    rfl
  refine ⟨index, resolved, ?_⟩
  rw [after_of_edit_ok asked]
  cases output <;> rfl

/-- A request designates an output exactly when it has its opcode. -/
theorem Sound.isSome_output_after (sound : graph.Sound) (request : Request)
    (output : Output) :
    ((graph.after request).output output).isSome ↔
      (graph.output output).isSome ∨ request.opcode = output.opcode := by
  by_cases same : request.opcode = output.opcode
  · have assigned : ∃ address, request = .assign output address := by
      cases request with
      | create neuron => cases neuron <;> cases output <;> cases same
      | moveTo address => cases output <;> cases same
      | readFrom address => cases output <;> cases same
      | assign designated address =>
          cases designated <;> cases output <;>
            first | exact ⟨address, rfl⟩ | cases same
    obtain ⟨address, rfl⟩ := assigned
    obtain ⟨index, -, designated⟩ := sound.output_after_assign output address
    rw [designated]
    exact ⟨fun _ => .inr same, fun _ => rfl⟩
  · rw [output_after_of_opcode_ne graph same]
    exact ⟨.inl, fun either => either.resolve_right same⟩

/-- A run designates the outputs whose opcodes occur in it. -/
theorem Sound.isSome_output_afterAll (sound : graph.Sound)
    (requests : List Request) (output : Output) :
    ((graph.afterAll requests).output output).isSome ↔
      (graph.output output).isSome ∨
        output.opcode ∈ requests.map Instruction.opcode := by
  induction requests generalizing graph with
  | nil => simp
  | cons request rest ih =>
      rw [afterAll_cons, ih (sound.after request),
        sound.isSome_output_after, List.map_cons, List.mem_cons, or_assoc,
        eq_comm (a := request.opcode)]

/-! ## Networks of sound graphs -/

theorem missing_eq_nil_iff (graph : Graph) :
    graph.missing = [] ↔ ∀ output, (graph.output output).isSome := by
  rw [missing, List.filter_eq_nil_iff]
  constructor
  · intro complete output
    have designated := complete output (by cases output <;> decide)
    exact Option.isSome_iff_ne_none.mpr fun absent => designated (absent ▸ rfl)
  · intro designated output _ absent
    have present := designated output
    rw [Option.isNone_iff_eq_none.mp absent] at present
    cases present

theorem network_of_missing {graph : Graph} (incomplete : graph.missing ≠ []) :
    graph.network = .error (.missingOutputs graph.missing) := by
  have refused : graph.outputs = .error (.missingOutputs graph.missing) := by
    unfold outputs
    split
    case h_1 dx dy foundDx foundDy =>
      refine absurd ((missing_eq_nil_iff graph).mpr ?_) incomplete
      intro output
      cases output with
      | dx => rw [Graph.output, foundDx]; rfl
      | dy => rw [Graph.output, foundDy]; rfl
    case h_2 => rfl
  rw [network, refused]
  rfl

/-- The neurons of a sound graph have patterns for parameters. -/
theorem Sound.exists_definitions (sound : graph.Sound) :
    ∃ definitions : List (Definition Binary64),
      graph.neurons = definitions.map Definition.numeric := by
  obtain ⟨created, neurons⟩ := sound.neurons
  refine ⟨[⟨.inputX, .zero⟩, ⟨.inputY, .zero⟩] ++
    created.map (Neuron.definition .zero), ?_⟩
  rw [neurons, List.map_append, List.map_map]
  rfl

/-- Every link of a sound graph can be kept in a network of its neurons. -/
theorem Sound.keepsLink (sound : graph.Sound) :
    (graph.inputs.all fun inputs =>
      inputs.all (Network.keepsLink graph.neurons.length)) = true := by
  rw [List.all_eq_true]
  intro inputs member
  rw [List.all_eq_true]
  intro link inside
  have found := (sound.links inputs member link inside).place?
  simp only [Network.keepsLink, count] at found ⊢
  rw [found]
  rfl

/-- A sound graph with both outputs becomes a network of the same shape. -/
theorem Sound.exists_network (sound : graph.Sound)
    (complete : graph.missing = []) :
    ∃ network, graph.network = .ok network ∧
      network.neurons.map (·.definition.numeric) = graph.neurons ∧
      network.neurons.map LinkedNeuron.links = graph.inputs ∧
      ∀ output, graph.output output = some (network.output output) := by
  have designated := (missing_eq_nil_iff graph).mp complete
  obtain ⟨dx, foundDx⟩ := Option.isSome_iff_exists.mp (designated .dx)
  obtain ⟨dy, foundDy⟩ := Option.isSome_iff_exists.mp (designated .dy)
  obtain ⟨definitions, neurons⟩ := sound.exists_definitions
  have lengths : definitions.length = graph.inputs.length := by
    rw [sound.inputs, count, neurons, List.length_map]
  have both : graph.outputs = .ok (dx, dy) := by
    have dxIs : graph.dx = some dx := foundDx
    have dyIs : graph.dy = some dy := foundDy
    rw [outputs, dxIs, dyIs]
  have joined :
      Network.assemble graph.neurons graph.inputs dx dy =
        .ok ⟨List.zipWith LinkedNeuron.mk definitions graph.inputs, dx,
          dy⟩ := by
    have same : graph.neurons.length = graph.inputs.length := sound.inputs.symm
    rw [Network.assemble, if_pos same, sound.keepsLink, neurons,
      Definition.mapM_toBinary64_numeric]
    rfl
  refine ⟨⟨List.zipWith LinkedNeuron.mk definitions graph.inputs, dx, dy⟩,
    ?_, ?_, LinkedNeuron.map_links_zipWith lengths, ?_⟩
  · rw [network, both]
    exact joined
  · rw [neurons, ← LinkedNeuron.map_definition_zipWith lengths, List.map_map,
      LinkedNeuron.map_definition_zipWith lengths]
    rfl
  · intro output
    cases output with
    | dx => exact foundDx
    | dy => exact foundDy

/-- A network that a sound graph has become is what the graph says. -/
theorem Sound.shape_of_network {network : Network}
    (sound : graph.Sound) (made : graph.network = .ok network) :
    network.neurons.map (·.definition.numeric) = graph.neurons ∧
      network.neurons.map LinkedNeuron.links = graph.inputs ∧
      ∀ output, graph.output output = some (network.output output) := by
  by_cases complete : graph.missing = []
  · obtain ⟨other, madeToo, shape⟩ := sound.exists_network complete
    rw [made] at madeToo
    cases madeToo
    exact shape
  · rw [network_of_missing complete] at made
    cases made

/--
All links and both outputs of a network that a sound graph has become name
neurons.
-/
theorem Sound.within_network {network : Network}
    (sound : graph.Sound) (made : graph.network = .ok network) :
    network.size = graph.count ∧
      (∀ neuron ∈ network.neurons, ∀ link ∈ neuron.links,
        Within network.size link) ∧
      ∀ output, Within network.size (network.output output) := by
  obtain ⟨neurons, links, outputs⟩ := sound.shape_of_network made
  have size : network.size = graph.count := by
    rw [Network.size, Graph.count, ← neurons, List.length_map]
  refine ⟨size, ?_, ?_⟩
  · intro neuron member link inside
    have listed : neuron.links ∈ graph.inputs :=
      links ▸ List.mem_map_of_mem member
    rw [size]
    exact sound.links neuron.links listed link inside
  · intro output
    rw [size]
    exact sound.output output (network.output output) (outputs output)

end Graph

/--
The graph of a program designates an output exactly when its opcode occurs.
-/
theorem Program.isSome_output_compiled (program : Program) (output : Output) :
    (program.compiled.output output).isSome ↔
      output.opcode ∈ program.opcodes := by
  have designated :=
    Graph.sound_initial.isSome_output_afterAll program.requests output
  have unset : (Graph.initial.output output).isSome = false := by
    cases output <;> rfl
  rw [unset, program.map_opcode_requests, program.afterAll_requests]
    at designated
  rw [designated]
  exact or_iff_right Bool.false_ne_true

end NeuralGenome
