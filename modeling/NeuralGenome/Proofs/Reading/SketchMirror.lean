import NeuralGenome.Proofs.Graph.Calls
import NeuralGenome.Reading.Description

/-!
# Sketches that mirror a graph

The graph builder and the layered describer receive the same calls, and each
keeps its own count of neurons and its own cursor.  A sketch *mirrors* a graph
when its books agree with it, and a call keeps it mirroring the graph that
receives that call.
-/

namespace NeuralGenome

/-! ## Views of a graph -/

namespace Graph

/-- The neurons that are no weighted sums, ascending. -/
def unweighted (graph : Graph) : List Nat :=
  (graph.neurons.zipIdx.filter fun entry =>
    entry.1.kind != .weightedSum).map Prod.snd

/-- The weighted sums with their weights, ascending. -/
def weighted (graph : Graph) : List (Nat × Number) :=
  (graph.neurons.zipIdx.filter fun entry =>
    entry.1.kind == .weightedSum).map fun entry => (entry.2, entry.1.parameter)

theorem unweighted_append (graph : Graph) (definition : Definition Binary64) :
    (graph.append definition).unweighted =
      graph.unweighted ++
        if definition.kind = .weightedSum then [] else [graph.count] := by
  rw [unweighted, append, List.zipIdx_append, List.filter_append,
    List.map_append, unweighted]
  apply congrArg
  by_cases weighted : definition.kind = .weightedSum <;>
    simp [Definition.numeric, weighted, count]

theorem weighted_append (graph : Graph) (definition : Definition Binary64) :
    (graph.append definition).weighted =
      graph.weighted ++
        if definition.kind = .weightedSum then
          [(graph.count, .pattern definition.parameter)]
        else [] := by
  rw [weighted, append, List.zipIdx_append, List.filter_append,
    List.map_append, weighted]
  apply congrArg
  by_cases weighted : definition.kind = .weightedSum <;>
    simp [Definition.numeric, weighted, count]

/-- A call adds to a list of inputs the link that it stores there. -/
theorem Sound.inputsOf_receive {graph : Graph} (sound : graph.Sound)
    (call : Call) (neuron : Nat) :
    (graph.receive call).inputsOf neuron =
      graph.inputsOf neuron ++
        (((graph.ask call).wire? graph.count).toList.filter
          (·.reader == neuron)).map Wire.index := by
  rw [← apply_ask]
  exact inputsOf_apply (sound.edit_request call) neuron

end Graph

/-! ## Sketches -/

namespace Sketch

/-- A sketch whose books agree with a graph. -/
structure Mirrors (sketch : Sketch) (graph : Graph) : Prop where
  count : sketch.count = graph.count
  cursor : (sketch.cursor : Int) = graph.cursor
  readings : ∀ neuron : Nat,
    (sketch.readings.filter (·.1 == neuron)).map
        (fun reading => (reading.2 : Int)) =
      graph.inputsOf neuron
  unweighted : sketch.unweighted = graph.unweighted
  weighted :
    sketch.weighted.map (fun entry => (entry.1, .pattern entry.2)) =
      graph.weighted
  output : ∀ output : Output,
    (sketch.output output).map Int.ofNat = graph.output output

theorem mirrors_initial : initial.Mirrors Graph.initial where
  count := rfl
  cursor := rfl
  readings := by
    intro neuron
    rcases neuron with _ | _ | _ <;> rfl
  unweighted := rfl
  weighted := rfl
  output := by
    intro output
    cases output <;> rfl

namespace Mirrors

variable {sketch : Sketch} {graph : Graph}

theorem resolve (mirrors : sketch.Mirrors graph) (index : Int) :
    sketch.resolve index = graph.wrap index := by
  rw [Sketch.resolve, mirrors.count]
  rfl

theorem create (mirrors : sketch.Mirrors graph) (sound : graph.Sound)
    (neuron : Neuron Binary64) :
    (sketch.receive (.create neuron)).Mirrors
      (graph.receive (.create neuron)) := by
  rw [receive, create_eq]
  constructor
  case count =>
    rw [Graph.receive, Graph.count_append, ← mirrors.count]
  case cursor =>
    exact congrArg Int.ofNat mirrors.count
  case readings =>
    intro created
    rw [sound.inputsOf_receive]
    exact (mirrors.readings created).trans (List.append_nil _).symm
  case unweighted =>
    rw [Graph.receive, Graph.unweighted_append, ← mirrors.unweighted,
      ← mirrors.count]
  case weighted =>
    rw [Graph.receive, Graph.weighted_append, ← mirrors.weighted,
      ← mirrors.count, List.map_append]
    split <;> rfl
  case output =>
    intro output
    cases output
    · exact mirrors.output .dx
    · exact mirrors.output .dy

theorem moveTo (mirrors : sketch.Mirrors graph) (index : Int) :
    (sketch.receive (.moveTo index)).Mirrors
      (graph.receive (.moveTo index)) :=
  { mirrors with cursor := congrArg Int.ofNat (mirrors.resolve index) }

theorem readFrom (mirrors : sketch.Mirrors graph) (sound : graph.Sound)
    (index : Int) :
    (sketch.receive (.readFrom index)).Mirrors
      (graph.receive (.readFrom index)) :=
  { mirrors with
    readings := by
      intro neuron
      have reader : graph.cursor.toNat = sketch.cursor := by
        rw [← mirrors.cursor]
        exact Int.toNat_natCast _
      rw [sound.inputsOf_receive, ← mirrors.readings, receive,
        List.filter_append, List.map_append, mirrors.resolve, Graph.ask, reader]
      apply congrArg
      by_cases here : sketch.cursor = neuron <;>
        simp [Graph.Edit.wire?, here] }

theorem assign (mirrors : sketch.Mirrors graph) (output : Output)
    (index : Int) :
    (sketch.receive (.assign output index)).Mirrors
      (graph.receive (.assign output index)) := by
  have designated : some (sketch.resolve index : Int) =
      some (graph.wrap index : Int) :=
    congrArg (fun neuron : Nat => some (neuron : Int)) (mirrors.resolve index)
  cases output with
  | dx =>
      exact { mirrors with
        output := by
          intro output
          cases output
          · exact designated
          · exact mirrors.output .dy }
  | dy =>
      exact { mirrors with
        output := by
          intro output
          cases output
          · exact mirrors.output .dx
          · exact designated }

theorem receive (mirrors : sketch.Mirrors graph) (sound : graph.Sound)
    (call : Call) : (sketch.receive call).Mirrors (graph.receive call) := by
  cases call with
  | create neuron => exact mirrors.create sound neuron
  | moveTo index => exact mirrors.moveTo index
  | readFrom index => exact mirrors.readFrom sound index
  | assign output index => exact mirrors.assign output index

/-- A sketch and a graph that agree still agree after any calls. -/
theorem receiveAll (mirrors : sketch.Mirrors graph) (sound : graph.Sound)
    (calls : List Call) :
    (sketch.receiveAll calls).Mirrors (graph.receiveAll calls) := by
  induction calls generalizing sketch graph with
  | nil => exact mirrors
  | cons call rest ih =>
      exact ih (mirrors.receive sound call) (sound.receive call)

end Mirrors

end Sketch

end NeuralGenome
