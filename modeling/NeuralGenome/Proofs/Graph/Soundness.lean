import NeuralGenome.Proofs.Graph.Growth

/-!
# Sound graphs

A graph is sound when its two tables are of one length, its first two neurons
are the inputs and every other one could have been created, and when the
cursor, every link and both outputs name neurons.  The graph of the two inputs
is sound and every request keeps a graph sound, whatever its address is; only a
value that no pattern is near to makes a request on a sound graph fail.
-/

namespace NeuralGenome

open ListPosition (Within)

namespace Graph

/-- A graph in which every index names a neuron. -/
structure Sound (graph : Graph) : Prop where
  neurons : ∃ created : List (Neuron Binary64),
    graph.neurons = initial.neurons ++ created.map Neuron.entry
  inputs : graph.inputs.length = graph.count
  cursor : Within graph.count graph.cursor
  links : ∀ links ∈ graph.inputs, ∀ link ∈ links, Within graph.count link
  output : ∀ (output : Output) (index : Int),
    graph.output output = some index → Within graph.count index

/-- A change that names neurons of a graph of so many neurons only. -/
def Edit.Within (population : Nat) : Edit → Prop
  | .append definition =>
      ∃ neuron : Neuron Binary64, definition = neuron.definition .zero
  | .place cursor => ListPosition.Within population cursor
  | .link reader index =>
      reader < population ∧ ListPosition.Within population index
  | .designate _ index => ListPosition.Within population index

theorem sound_initial : initial.Sound where
  neurons := ⟨[], rfl⟩
  inputs := rfl
  cursor := ⟨by decide, by decide⟩
  links := by decide
  output := by
    intro output index assigned
    cases output <;> cases assigned

namespace Sound

variable {graph : Graph}

theorem reserved_le_count (sound : graph.Sound) :
    reservedNeurons ≤ graph.count := by
  obtain ⟨created, neurons⟩ := sound.neurons
  rw [count, neurons, List.length_append]
  exact Nat.le_add_right _ _

theorem count_pos (sound : graph.Sound) : 0 < graph.count :=
  Nat.lt_of_lt_of_le (by decide) sound.reserved_le_count

/-- The cursor of a sound graph designates the list of its own neuron. -/
theorem reader_eq (sound : graph.Sound) :
    graph.reader = .ok graph.cursor.toNat := by
  rw [reader, sound.inputs]
  exact sound.cursor.locate

/--
On a sound graph a request asks for a change unless its value is at fault.
-/
theorem edit_within (sound : graph.Sound) {request : Request}
    (faultless : request.fault? = none) :
    ∃ edit, graph.edit request = .ok edit ∧ edit.Within graph.count := by
  cases request with
  | create neuron =>
      cases converted : neuron.convert Number.toBinary64 with
      | ok value =>
          refine ⟨.append (value.definition .zero), ?_, value, rfl⟩
          rw [edit, converted]
          rfl
      | error fault =>
          rw [Request.fault?, converted] at faultless
          cases faultless
  | moveTo address =>
      obtain ⟨index, resolved, within⟩ := address.exists_resolve sound.count_pos
      refine ⟨.place index, ?_, within⟩
      rw [edit, resolved]
      rfl
  | readFrom address =>
      obtain ⟨index, resolved, within⟩ := address.exists_resolve sound.count_pos
      have inside : graph.cursor.toNat < graph.count := by
        have := sound.cursor.2
        have := sound.cursor.1
        omega
      refine ⟨.link graph.cursor.toNat index, ?_, inside, within⟩
      rw [edit, sound.reader_eq, resolved]
      rfl
  | assign output address =>
      obtain ⟨index, resolved, within⟩ := address.exists_resolve sound.count_pos
      refine ⟨.designate output index, ?_, within⟩
      rw [edit, resolved]
      rfl

end Sound

theorem edit_of_fault? (graph : Graph) {request : Request} {fault : Fault}
    (faulty : request.fault? = some fault) :
    graph.edit request = .error fault := by
  cases request with
  | create neuron =>
      cases converted : neuron.convert Number.toBinary64 with
      | ok value =>
          rw [Request.fault?, converted] at faulty
          cases faulty
      | error found =>
          rw [Request.fault?, converted] at faulty
          cases faulty
          rw [edit, converted]
          rfl
  | moveTo address => cases faulty
  | readFrom address => cases faulty
  | assign output address => cases faulty

/-! ## One request -/

/-- Every list of inputs after a new link is an old one or extends one. -/
theorem mem_inputs_link {graph : Graph} {reader : Nat} {index : Int}
    {links : List Int} (member : links ∈ (graph.link reader index).inputs) :
    ∃ old ∈ graph.inputs, links = old ∨ links = old ++ [index] := by
  obtain ⟨place, found⟩ := List.mem_iff_getElem?.mp member
  simp only [link, List.getElem?_modify] at found
  obtain ⟨old, foundOld, changed⟩ := Option.map_eq_some_iff.mp found
  refine ⟨old, List.mem_of_getElem? foundOld, ?_⟩
  by_cases here : reader = place
  · rw [if_pos here] at changed
    exact .inr changed.symm
  · rw [if_neg here] at changed
    exact .inl changed.symm

namespace Sound

variable {graph : Graph}

theorem append (sound : graph.Sound) (neuron : Neuron Binary64) :
    (graph.append (neuron.definition .zero)).Sound := by
  have grown :
      graph.count ≤ (graph.append (neuron.definition .zero)).count := by
    rw [count_append]
    exact Nat.le_succ _
  constructor
  case neurons =>
    obtain ⟨created, neurons⟩ := sound.neurons
    refine ⟨created ++ [neuron], ?_⟩
    rw [Graph.append, neurons, List.map_append, List.append_assoc]
    rfl
  case inputs =>
    rw [count_append, ← sound.inputs, Graph.append, List.length_append]
    rfl
  case cursor =>
    rw [count_append, Graph.append]
    exact ⟨Int.natCast_nonneg _, Int.ofNat_lt.mpr (Nat.lt_succ_self _)⟩
  case links =>
    intro links member link inside
    -- old links stay within the longer table, and the new list is empty
    rcases List.mem_append.mp member with old | new
    · exact (sound.links links old link inside).mono grown
    · cases List.mem_singleton.mp new
      cases inside
  case output =>
    intro output index assigned
    have before : graph.output output = some index := by
      cases output <;> exact assigned
    exact (sound.output output index before).mono grown

theorem place (sound : graph.Sound) {cursor : Int}
    (within : Within graph.count cursor) : (graph.place cursor).Sound :=
  { sound with cursor := within }

theorem link (sound : graph.Sound) (reader : Nat) {index : Int}
    (within : Within graph.count index) : (graph.link reader index).Sound where
  neurons := sound.neurons
  inputs := by
    rw [count_link, Graph.link, List.length_modify, sound.inputs]
  cursor := sound.cursor
  links := by
    intro links member link inside
    obtain ⟨old, oldMember, same | extended⟩ := mem_inputs_link member
    · exact sound.links old oldMember link (same ▸ inside)
    · rw [extended] at inside
      rcases List.mem_append.mp inside with kept | new
      · exact sound.links old oldMember link kept
      · rw [List.mem_singleton.mp new]
        exact within
  output := sound.output

theorem designate (sound : graph.Sound) (designated : Output) {index : Int}
    (within : Within graph.count index) :
    (graph.designate designated index).Sound where
  neurons := by
    cases designated <;> exact sound.neurons
  inputs := by
    cases designated <;> exact sound.inputs
  cursor := by
    cases designated <;> exact sound.cursor
  links := by
    cases designated <;> exact sound.links
  output := by
    intro output found assigned
    rw [count_designate]
    by_cases same : designated = output
    · subst same
      cases designated <;> cases assigned <;> exact within
    · have before : graph.output output = some found := by
        cases designated <;> cases output <;>
          first | exact assigned | exact absurd rfl same
      exact sound.output output found before

/-- A change that names neurons of a sound graph keeps it sound. -/
theorem apply (sound : graph.Sound) {edit : Edit}
    (within : edit.Within graph.count) : (graph.apply edit).Sound := by
  cases edit with
  | append definition =>
      obtain ⟨neuron, rfl⟩ := within
      exact sound.append neuron
  | place cursor => exact sound.place within
  | link reader index => exact sound.link reader within.2
  | designate output index => exact sound.designate output within

/-- Every request keeps a sound graph sound, also one that fails. -/
theorem after (sound : graph.Sound) (request : Request) :
    (graph.after request).Sound := by
  cases faulty : request.fault? with
  | none =>
      obtain ⟨edit, asked, within⟩ := sound.edit_within faulty
      rw [after_of_edit_ok asked]
      exact sound.apply within
  | some fault =>
      rw [after_of_edit_error (edit_of_fault? graph faulty)]
      exact sound

/-- A request on a sound graph fails exactly when its value is at fault. -/
theorem outcome_perform (sound : graph.Sound) (request : Request) :
    ((perform request).run graph).1 =
      match request.fault? with
      | none => .ok ()
      | some fault => .error fault := by
  cases faulty : request.fault? with
  | none =>
      obtain ⟨edit, asked, within⟩ := sound.edit_within faulty
      rw [run_perform, asked]
  | some fault => rw [run_perform, edit_of_fault? graph faulty]

/-- A link that is stored joins neurons that exist at that moment. -/
theorem wire_within (sound : graph.Sound) {request : Request} {wire : Wire}
    (stored : graph.wire? request = some wire) :
    wire.reader < wire.population ∧ Within wire.population wire.index := by
  cases faulty : request.fault? with
  | none =>
      obtain ⟨edit, asked, within⟩ := sound.edit_within faulty
      rw [wire?, asked] at stored
      cases edit with
      | link reader index =>
          cases stored
          exact within
      | append definition => cases stored
      | place cursor => cases stored
      | designate output index => cases stored
  | some fault =>
      rw [wire?, edit_of_fault? graph faulty] at stored
      cases stored

end Sound

/-! ## A run of requests -/

theorem Sound.afterAll {graph : Graph} (sound : graph.Sound)
    (requests : List Request) : (graph.afterAll requests).Sound := by
  induction requests generalizing graph with
  | nil => exact sound
  | cons request rest ih => exact ih (sound.after request)

theorem Sound.wires_within {graph : Graph} (sound : graph.Sound)
    {requests : List Request} {wire : Wire}
    (stored : wire ∈ graph.wires requests) :
    wire.reader < wire.population ∧ Within wire.population wire.index := by
  induction requests generalizing graph with
  | nil => cases stored
  | cons request rest ih =>
      rcases List.mem_append.mp stored with now | later
      · exact sound.wire_within (Option.mem_toList.mp now)
      · exact ih (sound.after request) later

theorem Sound.run_performAll {graph : Graph} (sound : graph.Sound)
    {requests : List Request}
    (faultless : ∀ request ∈ requests, request.fault? = none) :
    (performAll requests).run graph = (.ok (), graph.afterAll requests) := by
  induction requests generalizing graph with
  | nil => rfl
  | cons request rest ih =>
      have outcome := sound.outcome_perform request
      rw [faultless request List.mem_cons_self] at outcome
      have done : (perform request).run graph = (.ok (), graph.after request) :=
        Prod.ext outcome rfl
      rw [performAll, Procedure.run_bind_of_ok done]
      exact ih (sound.after request) fun later member =>
        faultless later (List.mem_cons_of_mem request member)

/-! ## Graphs that requests reach from the two inputs -/

/-- Only the first two neurons of a sound graph are inputs. -/
theorem Sound.kind_not_input {graph : Graph} (sound : graph.Sound)
    {neuron : Nat} {definition : Definition Number}
    (created : reservedNeurons ≤ neuron)
    (found : graph.neurons[neuron]? = some definition) :
    definition.kind ≠ .inputX ∧ definition.kind ≠ .inputY := by
  obtain ⟨later, neurons⟩ := sound.neurons
  rw [neurons, List.getElem?_append_right created, List.getElem?_map] at found
  obtain ⟨source, -, same⟩ := Option.map_eq_some_iff.mp found
  rw [← same]
  exact source.kind_entry

/-- Every neuron of a sound graph has a list of inputs. -/
theorem Sound.getElem?_inputs {graph : Graph} (sound : graph.Sound)
    {neuron : Nat} (inside : neuron < graph.count) :
    graph.inputs[neuron]? = some (graph.inputsOf neuron) := by
  have listed : neuron < graph.inputs.length := by
    rw [sound.inputs]
    exact inside
  rw [inputsOf, List.getD_eq_getElem?_getD, List.getElem?_eq_getElem listed]
  rfl

/--
A graph reached from the inputs has the lists that its links leave behind.
-/
theorem inputs_afterAll_initial (requests : List Request) {neuron : Nat}
    (inside : neuron < (initial.afterAll requests).count) :
    (initial.afterAll requests).inputs[neuron]? =
      some (((initial.wires requests).filter
        (·.reader == neuron)).map Wire.index) := by
  have history := inputsOf_afterAll requests initial neuron
  have unread : initial.inputsOf neuron = [] := by
    rcases neuron with _ | _ | _ <;> rfl
  rw [unread, List.nil_append] at history
  rw [← history]
  exact (sound_initial.afterAll requests).getElem?_inputs inside

/--
Every graph that requests reach from the two inputs is sound, and it counts the
two inputs and the created neurons, of which none is an input.  Its lists of
inputs are made of the links stored on the way, each of which named a neuron
already when it was stored.  Further requests only add to it, and no request
on it fails, unless it brings along a value that no pattern is near to.
-/
theorem reachable_sound_extends (requests more : List Request) :
    let graph := initial.afterAll requests
    graph.Sound ∧
      graph.count =
        reservedNeurons + (requests.filterMap Request.created?).length ∧
      graph.neurons[xNeuron]? = some ⟨.inputX, .pattern .zero⟩ ∧
      graph.neurons[yNeuron]? = some ⟨.inputY, .pattern .zero⟩ ∧
      (∀ (neuron : Nat) (definition : Definition Number),
        reservedNeurons ≤ neuron → graph.neurons[neuron]? = some definition →
          definition.kind ≠ .inputX ∧ definition.kind ≠ .inputY) ∧
      (∀ neuron < graph.count,
        graph.inputs[neuron]? =
          some (((initial.wires requests).filter
            (·.reader == neuron)).map Wire.index)) ∧
      (∀ wire ∈ initial.wires requests, Within wire.population wire.index) ∧
      (initial.afterAll (requests ++ more)).Extends graph ∧
      ∀ request : Request,
        ((perform request).run graph).1 =
          match request.fault? with
          | none => .ok ()
          | some fault => .error fault := by
  intro graph
  have sound : graph.Sound := sound_initial.afterAll requests
  obtain ⟨created, neurons⟩ := sound.neurons
  refine ⟨sound, count_afterAll requests initial, ?_, ?_, ?_, ?_, ?_, ?_, ?_⟩
  · rw [neurons]
    rfl
  · rw [neurons]
    rfl
  · intro neuron definition later found
    exact sound.kind_not_input later found
  · intro neuron inside
    exact inputs_afterAll_initial requests inside
  · intro wire stored
    exact (sound_initial.wires_within stored).2
  · rw [afterAll_append]
    exact extends_afterAll more graph
  · exact sound.outcome_perform

end Graph

end NeuralGenome
