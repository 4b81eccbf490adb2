import NeuralGenome.Proofs.Reading.ListingMirror
import NeuralGenome.Proofs.Reading.SketchMirror
import NeuralGenome.Reading.Weights

/-!
# Readers that agree with the builder

The graph builder, the layered describer, the listing and the collector of
weights each resolve the indexes of the calls that they receive on their own.
After any calls the books of all four are the same books: a neuron, a link or
an output that one of them shows is the one that is compiled.
-/

namespace NeuralGenome

/-! ## Weights -/

namespace Weights

/-- Weights that are those of the weighted sums of a graph. -/
def Mirrors (weights : List Binary64) (graph : Graph) : Prop :=
  weights.map Number.pattern = graph.weighted.map Prod.snd

theorem mirrors_initial : Mirrors [] Graph.initial := rfl

namespace Mirrors

variable {weights : List Binary64} {graph : Graph}

theorem create (mirrors : Mirrors weights graph) (neuron : Neuron Binary64) :
    Mirrors (Weights.receive weights (.create neuron))
      (graph.receive (.create neuron)) := by
  rw [Mirrors, Weights.receive, Graph.receive, Graph.weighted_append,
    List.map_append, List.map_append, mirrors]
  cases neuron <;> rfl

/-- Only a creation can change the weights, and a graph its weighted sums. -/
theorem receive (mirrors : Mirrors weights graph) (call : Call) :
    Mirrors (Weights.receive weights call) (graph.receive call) := by
  have kept : Mirrors (weights ++ []) graph := by
    rw [List.append_nil]
    exact mirrors
  cases call with
  | create neuron => exact mirrors.create neuron
  | moveTo index => exact kept
  | readFrom index => exact kept
  | assign output index => cases output <;> exact kept

theorem receiveAll (mirrors : Mirrors weights graph) (calls : List Call) :
    Mirrors (Weights.receiveAll weights calls) (graph.receiveAll calls) := by
  induction calls generalizing weights graph with
  | nil => exact mirrors
  | cons call rest ih => exact ih (mirrors.receive call)

end Mirrors

end Weights

/-! ## All readers -/

namespace Graph

/--
After any calls the builder has not failed, and the other three readers agree
with the graph that it has built: the sketch on the number of neurons, the
cursor, the outputs, each list of inputs and the division of the neurons into
weighted sums and others; the listing, once no read waits, on the neurons that
it names, the cursor, the links in the order in which they were stored and the
outputs; and the weights on the parameters of the weighted sums.
-/
theorem readers_agree (calls : List Call) :
    ∃ graph : Graph,
      (performAll (calls.map Call.request)).run initial = (.ok (), graph) ∧
      let sketch := Sketch.initial.receiveAll calls
      let listing := (Listing.initial.receiveAll (calls.map Call.numeric)).flush
      let weights := Weights.receiveAll [] calls
      (sketch.count = graph.count ∧
        (sketch.cursor : Int) = graph.cursor ∧
        (∀ output : Output,
          (sketch.output output).map Int.ofNat = graph.output output) ∧
        (∀ neuron < graph.count,
          graph.inputs[neuron]? =
            some ((sketch.readings.filter (·.1 == neuron)).map
              fun reading => (reading.2 : Int))) ∧
        sketch.unweighted = graph.unweighted ∧
        sketch.weighted.map (fun entry => (entry.1, .pattern entry.2)) =
          graph.weighted) ∧
      (listing.neurons = graph.neurons ∧
        (listing.reader : Int) = graph.cursor ∧
        listing.wireNeurons.map Int.ofNat =
          (initial.wires (calls.map Call.request)).map Wire.index ∧
        (∀ output : Output,
          (listing.lastAnswer output).map Int.ofNat = graph.output output)) ∧
      weights.map Number.pattern = graph.weighted.map Prod.snd := by
  have sound : (initial.receiveAll calls).Sound :=
    sound_initial.receiveAll calls
  have sketched := Sketch.mirrors_initial.receiveAll sound_initial calls
  have listed :=
    (Listing.mirrors_initial.receiveAll sound_initial calls).flush
  have weighed := Weights.mirrors_initial.receiveAll calls
  refine ⟨initial.receiveAll calls,
    sound_initial.run_performAll_requests calls,
    ⟨sketched.count, sketched.cursor, sketched.output, ?inputs,
      sketched.unweighted, sketched.weighted⟩,
    ⟨listed.neurons, listed.reader, ?wires, listed.answers⟩, weighed⟩
  case inputs =>
    intro neuron inside
    rw [sketched.readings neuron]
    exact sound.getElem?_inputs inside
  case wires =>
    have stored := listed.wires
    rw [List.nil_append] at stored
    exact (congrArg _ (List.append_nil _).symm).trans stored

end Graph

end NeuralGenome
