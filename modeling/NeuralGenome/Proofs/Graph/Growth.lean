import NeuralGenome.Proofs.Graph.Edit

/-!
# Graphs only grow

A request appends the neuron that it creates, adds the link that it stores at
the end of one list of inputs, or changes the cursor or an output; it takes
nothing away.  `Graph.Extends` compares a later graph with an earlier one.  All
of this holds from any graph on, also from a malformed one.

The neurons of a graph are those it started with and the created ones in order
(`Graph.neurons_afterAll`), and its lists of inputs are what the links stored
on the way leave behind (`Graph.inputsOf_afterAll`).
-/

namespace NeuralGenome

/-! ## What a request brings along -/

namespace Request

/-- The neuron that a request creates, once its value has a pattern. -/
def created? : Request → Option (Neuron Binary64)
  | .create neuron => (neuron.convert Number.toBinary64).toOption
  | _ => none

/-- The fault of the value of a request, if it has a value without a pattern. -/
def fault? : Request → Option Fault
  | .create neuron =>
      match neuron.convert Number.toBinary64 with
      | .ok _ => none
      | .error fault => some fault
  | _ => none

end Request

/-- How a graph keeps a created neuron. -/
def Neuron.entry (neuron : Neuron Binary64) : Definition Number :=
  (neuron.definition .zero).numeric

theorem Neuron.kind_entry (neuron : Neuron Binary64) :
    neuron.entry.kind ≠ .inputX ∧ neuron.entry.kind ≠ .inputY := by
  cases neuron <;> exact ⟨Kind.noConfusion, Kind.noConfusion⟩

namespace Graph

/-! ## Neurons -/

/-- A change appends a neuron to a graph or leaves its neurons alone. -/
def Edit.appended : Edit → List (Definition Number)
  | .append definition => [definition.numeric]
  | _ => []

theorem neurons_apply (graph : Graph) (edit : Edit) :
    (graph.apply edit).neurons = graph.neurons ++ edit.appended := by
  cases edit with
  | append definition => rfl
  | place cursor => exact (List.append_nil _).symm
  | link reader index => exact (List.append_nil _).symm
  | designate output index => cases output <;> exact (List.append_nil _).symm

/-- What a request appends is the neuron that it creates. -/
theorem appended_of_edit {graph : Graph} {request : Request} {edit : Edit}
    (asked : graph.edit request = .ok edit) :
    edit.appended = (request.created?.map Neuron.entry).toList := by
  cases asks_of_edit asked with
  | create converted =>
      simp only [Request.created?, converted]
      rfl
  | moveTo resolved => rfl
  | readFrom located resolved => rfl
  | assign resolved => rfl

/-- A request that fails creates no neuron. -/
theorem created?_of_edit_error {graph : Graph} {request : Request}
    {fault : Fault} (refused : graph.edit request = .error fault) :
    request.created? = none := by
  cases request with
  | create neuron =>
      rcases bind_eq_error.mp refused with failed | ⟨value, converted, returned⟩
      · simp only [Request.created?, failed]
        rfl
      · cases returned
  | moveTo address => rfl
  | readFrom address => rfl
  | assign output address => rfl

/-- A request appends the neuron that it creates, and no other. -/
theorem neurons_after (graph : Graph) (request : Request) :
    (graph.after request).neurons =
      graph.neurons ++ (request.created?.map Neuron.entry).toList := by
  cases asked : graph.edit request with
  | ok edit =>
      rw [after_of_edit_ok asked, neurons_apply, appended_of_edit asked]
  | error fault =>
      rw [after_of_edit_error asked, created?_of_edit_error asked]
      exact (List.append_nil _).symm

/-- The neurons of a graph are those it started with and those created since. -/
theorem neurons_afterAll (requests : List Request) (graph : Graph) :
    (graph.afterAll requests).neurons =
      graph.neurons ++
        (requests.filterMap Request.created?).map Neuron.entry := by
  induction requests generalizing graph with
  | nil => simp
  | cons request rest ih =>
      rw [afterAll_cons, ih, neurons_after, List.append_assoc]
      cases created : request.created? with
      | none => simp [created]
      | some neuron => simp [created]

theorem count_afterAll (requests : List Request) (graph : Graph) :
    (graph.afterAll requests).count =
      graph.count + (requests.filterMap Request.created?).length := by
  simp only [count, neurons_afterAll, List.length_append, List.length_map]

/-! ## Growth -/

/-- A later graph keeps what an earlier one has and may add to it. -/
structure Extends (later earlier : Graph) : Prop where
  neurons : earlier.neurons <+: later.neurons
  inputs : ∀ (neuron : Nat) (links : List Int),
    earlier.inputs[neuron]? = some links →
      ∃ more, later.inputs[neuron]? = some (links ++ more)
  output : ∀ output : Output,
    (earlier.output output).isSome → (later.output output).isSome

theorem Extends.refl (graph : Graph) : graph.Extends graph where
  neurons := List.prefix_rfl
  inputs := fun _ links found => ⟨[], by rw [found, List.append_nil]⟩
  output := fun _ assigned => assigned

theorem Extends.trans {last middle first : Graph}
    (second : last.Extends middle) (earlier : middle.Extends first) :
    last.Extends first where
  neurons := earlier.neurons.trans second.neurons
  inputs := by
    intro neuron links found
    obtain ⟨more, between⟩ := earlier.inputs neuron links found
    obtain ⟨rest, reached⟩ := second.inputs neuron (links ++ more) between
    exact ⟨more ++ rest, by rw [reached, List.append_assoc]⟩
  output := fun output assigned =>
    second.output output (earlier.output output assigned)

/-- Every change only adds, also a change to a malformed graph. -/
theorem extends_apply (graph : Graph) (edit : Edit) :
    (graph.apply edit).Extends graph where
  neurons := by
    rw [neurons_apply]
    exact List.prefix_append _ _
  inputs := by
    intro neuron links found
    cases edit with
    | append definition =>
        obtain ⟨inside, -⟩ := List.getElem?_eq_some_iff.mp found
        refine ⟨[], ?_⟩
        simp [apply, append, List.getElem?_append_left inside, found]
    | place cursor => exact ⟨[], by rw [List.append_nil]; exact found⟩
    | link reader index =>
        by_cases here : reader = neuron
        · refine ⟨[index], ?_⟩
          simp [apply, link, here, found]
        · refine ⟨[], ?_⟩
          simp [apply, link, here, found]
    | designate output index =>
        cases output <;> exact ⟨[], by rw [List.append_nil]; exact found⟩
  output := by
    intro output assigned
    cases edit with
    | append definition => exact assigned
    | place cursor => exact assigned
    | link reader index => exact assigned
    | designate designated index =>
        cases designated <;> cases output <;> first | exact assigned | rfl

theorem extends_after (graph : Graph) (request : Request) :
    (graph.after request).Extends graph := by
  cases asked : graph.edit request with
  | ok edit =>
      rw [after_of_edit_ok asked]
      exact extends_apply graph edit
  | error fault =>
      rw [after_of_edit_error asked]
      exact Extends.refl graph

/-- A run of requests only adds. -/
theorem extends_afterAll (requests : List Request) (graph : Graph) :
    (graph.afterAll requests).Extends graph := by
  induction requests generalizing graph with
  | nil => exact Extends.refl graph
  | cons request rest ih =>
      exact (ih (graph.after request)).trans (extends_after graph request)

/-! ## Lists of inputs -/

/-- The neurons that a neuron reads, none where there is no such neuron. -/
def inputsOf (graph : Graph) (neuron : Nat) : List Int :=
  graph.inputs.getD neuron []

/-- The cursor designates a list of inputs that exists. -/
theorem reader_lt {graph : Graph} {reader : Nat}
    (located : graph.reader = .ok reader) : reader < graph.inputs.length := by
  unfold Graph.reader ListPosition.locate at located
  split at located
  · rename_i place found
    cases located
    exact ListPosition.lt_of_place? found
  · cases located

/-- A change adds to the list of inputs of a neuron the link it stores there. -/
theorem inputsOf_apply {graph : Graph} {request : Request} {edit : Edit}
    (asked : graph.edit request = .ok edit) (neuron : Nat) :
    (graph.apply edit).inputsOf neuron =
      graph.inputsOf neuron ++
        ((edit.wire? graph.count).toList.filter
          (·.reader == neuron)).map Wire.index := by
  cases asks_of_edit asked with
  | create converted =>
      by_cases inside : neuron < graph.inputs.length
      · simp [inputsOf, apply, append, Edit.wire?,
          List.getElem?_append_left inside]
      · have outside : graph.inputs.length ≤ neuron := Nat.le_of_not_lt inside
        have empty :
            ([[]] : List (List Int))[neuron - graph.inputs.length]?.getD [] =
              [] := by
          cases neuron - graph.inputs.length <;> rfl
        simp only [inputsOf, apply, append, Edit.wire?,
          List.getD_eq_getElem?_getD, List.getElem?_append_right outside, empty,
          List.getElem?_eq_none outside]
        rfl
  | moveTo resolved => exact (List.append_nil _).symm
  | @readFrom address reader index located resolved =>
      have inside := reader_lt located
      by_cases here : reader = neuron
      · subst here
        simp [inputsOf, apply, link, Edit.wire?, inside]
      · simp [inputsOf, apply, link, Edit.wire?, here]
  | @assign output =>
      cases output <;> exact (List.append_nil _).symm

theorem inputsOf_after (graph : Graph) (request : Request) (neuron : Nat) :
    (graph.after request).inputsOf neuron =
      graph.inputsOf neuron ++
        ((graph.wire? request).toList.filter
          (·.reader == neuron)).map Wire.index := by
  cases asked : graph.edit request with
  | ok edit =>
      rw [after_of_edit_ok asked, inputsOf_apply asked, wire?, asked]
      rfl
  | error fault =>
      rw [after_of_edit_error asked, wire?, asked]
      exact (List.append_nil _).symm

/-- A list of inputs holds what it started with and the links stored since. -/
theorem inputsOf_afterAll (requests : List Request) (graph : Graph)
    (neuron : Nat) :
    (graph.afterAll requests).inputsOf neuron =
      graph.inputsOf neuron ++
        ((graph.wires requests).filter
          (·.reader == neuron)).map Wire.index := by
  induction requests generalizing graph with
  | nil => exact (List.append_nil _).symm
  | cons request rest ih =>
      rw [afterAll_cons, ih, inputsOf_after, wires, List.filter_append,
        List.map_append, List.append_assoc]

end Graph

end NeuralGenome
