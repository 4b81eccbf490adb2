import NeuralGenome.Graph.Building

/-!
# Requests as edits

A request to the graph builder first resolves its address or converts its
value, which may fail, and then makes one change that cannot fail.  This module
separates the two halves: `Graph.edit` is the change that a request asks for,
and `Graph.apply` makes it.  The main lemma, `Graph.run_perform`, says that a
request on any graph, also a malformed one, either makes exactly this change or
fails and leaves the graph alone.

`Graph.afterAll` is the graph that a caller reaches who goes on after a failed
request, and `Graph.wires` records the links that are stored on the way, each
with the number of neurons that exist at that moment.
-/

namespace NeuralGenome

namespace Graph

/-! ## One request -/

/-- One change of a graph; nothing is left to be resolved or converted. -/
inductive Edit where
  | append (definition : Definition Binary64)
  | place (cursor : Int)
  | link (reader : Nat) (index : Int)
  | designate (output : Output) (index : Int)
deriving DecidableEq

/-- Make a change. -/
def apply (graph : Graph) : Edit → Graph
  | .append definition => graph.append definition
  | .place cursor => graph.place cursor
  | .link reader index => graph.link reader index
  | .designate output index => graph.designate output index

/-- The change that a request asks for. -/
def edit (graph : Graph) : Request → Except Fault Edit
  | .create neuron => do
      return .append ((← neuron.convert Number.toBinary64).definition .zero)
  | .moveTo address => do return .place (← address.resolve graph)
  | .readFrom address => do
      let reader ← graph.reader
      return .link reader (← address.resolve graph)
  | .assign output address => do
      return .designate output (← address.resolve graph)

/-- A request makes its change, or it fails and leaves the graph alone. -/
theorem run_perform (request : Request) (graph : Graph) :
    (perform request).run graph =
      match graph.edit request with
      | .ok edit => (.ok (), graph.apply edit)
      | .error fault => (.error fault, graph) := by
  cases request with
  | create neuron =>
      simp only [perform, edit, Procedure.run_bind, Procedure.run_ofExcept]
      cases neuron.convert Number.toBinary64 with
      | ok value => rfl
      | error fault => rfl
  | moveTo address =>
      simp only [perform, edit, Procedure.run_bind, Procedure.run_get,
        Procedure.run_ofExcept]
      cases address.resolve graph with
      | ok index => rfl
      | error fault => rfl
  | readFrom address =>
      cases located : graph.reader with
      | ok reader =>
          simp only [perform, edit, Procedure.run_bind, Procedure.run_get,
            Procedure.run_ofExcept, located]
          cases address.resolve graph with
          | ok index => rfl
          | error fault => rfl
      | error fault =>
          simp only [perform, edit, Procedure.run_bind, Procedure.run_get,
            Procedure.run_ofExcept, located]
          rfl
  | assign output address =>
      simp only [perform, edit, Procedure.run_bind, Procedure.run_get,
        Procedure.run_ofExcept]
      cases address.resolve graph with
      | ok index => rfl
      | error fault => rfl

/-- When a request asks for a change, one case for each kind of request. -/
inductive Asks (graph : Graph) : Request → Edit → Prop where
  | create {neuron : Neuron Number} {value : Neuron Binary64}
      (converted : neuron.convert Number.toBinary64 = .ok value) :
      Asks graph (.create neuron) (.append (value.definition .zero))
  | moveTo {address : Address} {index : Int}
      (resolved : address.resolve graph = .ok index) :
      Asks graph (.moveTo address) (.place index)
  | readFrom {address : Address} {reader : Nat} {index : Int}
      (located : graph.reader = .ok reader)
      (resolved : address.resolve graph = .ok index) :
      Asks graph (.readFrom address) (.link reader index)
  | assign {output : Output} {address : Address} {index : Int}
      (resolved : address.resolve graph = .ok index) :
      Asks graph (.assign output address) (.designate output index)

theorem asks_of_edit {graph : Graph} {request : Request} {edit : Edit}
    (asked : graph.edit request = .ok edit) : graph.Asks request edit := by
  cases request with
  | create neuron =>
      obtain ⟨value, converted, returned⟩ := bind_eq_ok.mp asked
      cases returned
      exact .create converted
  | moveTo address =>
      obtain ⟨index, resolved, returned⟩ := bind_eq_ok.mp asked
      cases returned
      exact .moveTo resolved
  | readFrom address =>
      obtain ⟨reader, located, rest⟩ := bind_eq_ok.mp asked
      obtain ⟨index, resolved, returned⟩ := bind_eq_ok.mp rest
      cases returned
      exact .readFrom located resolved
  | assign output address =>
      obtain ⟨index, resolved, returned⟩ := bind_eq_ok.mp asked
      cases returned
      exact .assign resolved

/-! ## Requests in a row -/

/--
The graph after a request, which is the same graph when the request fails.
-/
def after (graph : Graph) (request : Request) : Graph :=
  ((perform request).run graph).2

/--
The graph after requests in order, of which those that fail are passed over.
-/
def afterAll (graph : Graph) (requests : List Request) : Graph :=
  requests.foldl after graph

@[simp]
theorem afterAll_nil (graph : Graph) : graph.afterAll [] = graph := rfl

@[simp]
theorem afterAll_cons (graph : Graph) (request : Request)
    (rest : List Request) :
    graph.afterAll (request :: rest) =
      (graph.after request).afterAll rest := rfl

theorem afterAll_append (graph : Graph) (first second : List Request) :
    graph.afterAll (first ++ second) =
      (graph.afterAll first).afterAll second := by
  simp only [afterAll, List.foldl_append]

theorem after_of_edit_ok {graph : Graph} {request : Request} {edit : Edit}
    (asked : graph.edit request = .ok edit) :
    graph.after request = graph.apply edit := by
  simp only [after, run_perform, asked]

theorem after_of_edit_error {graph : Graph} {request : Request}
    {fault : Fault} (refused : graph.edit request = .error fault) :
    graph.after request = graph := by
  simp only [after, run_perform, refused]

/-! ## Links as they are stored -/

/-- A link at the moment when it is stored. -/
structure Wire where
  reader : Nat
  index : Int
  /-- How many neurons the graph has at that moment. -/
  population : Nat
deriving DecidableEq

/-- The link that a change stores in a graph of so many neurons. -/
def Edit.wire? (population : Nat) : Edit → Option Wire
  | .link reader index => some ⟨reader, index, population⟩
  | _ => none

/-- The link that a request stores in a graph. -/
def wire? (graph : Graph) (request : Request) : Option Wire :=
  (graph.edit request).toOption.bind (Edit.wire? graph.count)

/-- The links that requests store, in order. -/
def wires (graph : Graph) : List Request → List Wire
  | [] => []
  | request :: rest =>
      (graph.wire? request).toList ++ (graph.after request).wires rest

end Graph

end NeuralGenome
