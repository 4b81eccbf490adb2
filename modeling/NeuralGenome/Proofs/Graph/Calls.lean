import NeuralGenome.Proofs.Graph.Soundness

/-!
# Graphs that receive calls

A call names a neuron by an integer and a value by a pattern.  On a sound graph
it cannot fail, and `Graph.receive` says what it does without any fault in
sight, in the way in which the other readers of programs receive a call.
-/

namespace NeuralGenome

/-- The value of a call is a pattern and cannot be at fault. -/
theorem Call.fault?_request (call : Call) : call.request.fault? = none := by
  cases call with
  | create neuron => cases neuron <;> rfl
  | moveTo index => rfl
  | readFrom index => rfl
  | assign output index => rfl

namespace Graph

/-- The neuron that an integer names in a graph with neurons. -/
def wrap (graph : Graph) (index : Int) : Nat :=
  ListPosition.wrap graph.count index

/-- Receive a call. -/
def receive (graph : Graph) : Call → Graph
  | .create neuron => graph.append (neuron.definition .zero)
  | .moveTo index => graph.place (graph.wrap index)
  | .readFrom index => graph.link graph.cursor.toNat (graph.wrap index)
  | .assign output index => graph.designate output (graph.wrap index)

def receiveAll (graph : Graph) (calls : List Call) : Graph :=
  calls.foldl receive graph

/-- The change that a call asks for, which nothing can refuse. -/
def ask (graph : Graph) : Call → Edit
  | .create neuron => .append (neuron.definition .zero)
  | .moveTo index => .place (graph.wrap index)
  | .readFrom index => .link graph.cursor.toNat (graph.wrap index)
  | .assign output index => .designate output (graph.wrap index)

theorem apply_ask (graph : Graph) (call : Call) :
    graph.apply (graph.ask call) = graph.receive call := by
  cases call <;> rfl

namespace Sound

variable {graph : Graph}

/-- An integer names the neuron that it wraps around to. -/
theorem resolve_index (sound : graph.Sound) (index : Int) :
    (Address.index index).resolve graph = .ok (graph.wrap index : Int) := by
  rw [Address.resolve_of_value rfl sound.count_pos, wrap,
    ListPosition.natCast_wrap index sound.count_pos]

/-- On a sound graph the request of a call asks for what the call asks for. -/
theorem edit_request (sound : graph.Sound) (call : Call) :
    graph.edit call.request = .ok (graph.ask call) := by
  cases call with
  | create neuron => cases neuron <;> rfl
  | moveTo index =>
      show (do return Edit.place (← (Address.index index).resolve graph)) = _
      rw [sound.resolve_index]
      rfl
  | readFrom index =>
      show (do
        let reader ← graph.reader
        return Edit.link reader (← (Address.index index).resolve graph)) = _
      rw [sound.reader_eq, sound.resolve_index]
      rfl
  | assign output index =>
      show (do
        return Edit.designate output
          (← (Address.index index).resolve graph)) = _
      rw [sound.resolve_index]
      rfl

theorem after_request (sound : graph.Sound) (call : Call) :
    graph.after call.request = graph.receive call := by
  rw [after_of_edit_ok (sound.edit_request call), apply_ask]

theorem receive (sound : graph.Sound) (call : Call) :
    (graph.receive call).Sound :=
  sound.after_request call ▸ sound.after call.request

theorem receiveAll (sound : graph.Sound) (calls : List Call) :
    (graph.receiveAll calls).Sound := by
  induction calls generalizing graph with
  | nil => exact sound
  | cons call rest ih => exact ih (sound.receive call)

theorem afterAll_requests (sound : graph.Sound) (calls : List Call) :
    graph.afterAll (calls.map Call.request) = graph.receiveAll calls := by
  induction calls generalizing graph with
  | nil => rfl
  | cons call rest ih =>
      rw [List.map_cons, afterAll_cons, ih (sound.after call.request),
        sound.after_request]
      rfl

theorem run_performAll_requests (sound : graph.Sound) (calls : List Call) :
    (performAll (calls.map Call.request)).run graph =
      (.ok (), graph.receiveAll calls) := by
  rw [sound.run_performAll, sound.afterAll_requests]
  intro request member
  obtain ⟨call, -, rfl⟩ := List.mem_map.mp member
  exact call.fault?_request

/-- The wire that the request of a call stores is the one it asks for. -/
theorem wire?_request (sound : graph.Sound) (call : Call) :
    graph.wire? call.request = (graph.ask call).wire? graph.count := by
  rw [wire?, sound.edit_request]
  rfl

end Sound

end Graph

end NeuralGenome
