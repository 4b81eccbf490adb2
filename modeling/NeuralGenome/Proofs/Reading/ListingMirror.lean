import NeuralGenome.Proofs.Graph.Calls
import NeuralGenome.Reading.Listing

/-!
# Listings that mirror a graph

A listing holds reads back until a line has to be written above them, so its
wire lines alone lag behind the graph.  The wire lines together with the reads
that wait are what a graph has stored, and that is the invariant: writing the
waiting reads does not change it, and each call adds to it the link that the
graph stores.
-/

namespace NeuralGenome

namespace Listing

/-- The neuron at which a wire line starts. -/
def Line.wire? : Line → Option Nat
  | .wire neuron _ => some neuron
  | _ => none

/-- The neuron that a line lets answer for an axis. -/
def Line.answer? (output : Output) : Line → Option Nat
  | .answer designated neuron _ =>
      if designated = output then some neuron else none
  | _ => none

def wireNeurons (listing : Listing) : List Nat :=
  listing.lines.filterMap Line.wire?

/-- The neuron that the last answer line for an axis shows. -/
def lastAnswer (listing : Listing) (output : Output) : Option Nat :=
  (listing.lines.filterMap (Line.answer? output)).getLast?

/-- The reads that wait become the wire lines. -/
theorem filterMap_wire?_waitingLines (listing : Listing) :
    listing.waitingLines.filterMap Line.wire? = listing.waiting := by
  have wires : (listing.waiting.map fun neuron =>
      Line.wire neuron (listing.name neuron)).filterMap Line.wire? =
        listing.waiting := by
    rw [List.filterMap_map]
    exact List.filterMap_some
  unfold waitingLines
  split
  case isTrue empty =>
    rw [List.isEmpty_iff.mp empty]
    rfl
  case isFalse =>
    rw [List.filterMap_append, wires]
    split <;> rfl

/-- The reads that wait let no neuron answer. -/
theorem filterMap_answer?_waitingLines (listing : Listing) (output : Output) :
    listing.waitingLines.filterMap (Line.answer? output) = [] := by
  rw [List.filterMap_eq_nil_iff]
  intro line member
  unfold waitingLines at member
  split at member
  · cases member
  · rcases List.mem_append.mp member with receiver | wire
    · split at receiver
      · cases receiver
      · rw [List.mem_singleton.mp receiver]
        rfl
    · obtain ⟨neuron, -, rfl⟩ := List.mem_map.mp wire
      rfl

theorem wireNeurons_flush (listing : Listing) :
    listing.flush.wireNeurons = listing.wireNeurons ++ listing.waiting := by
  rw [wireNeurons, flush, List.filterMap_append, filterMap_wire?_waitingLines]
  rfl

theorem lastAnswer_flush (listing : Listing) (output : Output) :
    listing.flush.lastAnswer output = listing.lastAnswer output := by
  rw [lastAnswer, flush, List.filterMap_append,
    filterMap_answer?_waitingLines, List.append_nil]
  rfl

/-- A line that is written adds the neuron that it lists as a wire. -/
theorem wireNeurons_of_lines (listing : Listing) {written : Listing}
    {line : Line} (lines : written.lines = listing.lines ++ [line]) :
    written.wireNeurons = listing.wireNeurons ++ line.wire?.toList := by
  rw [wireNeurons, lines, List.filterMap_append, List.filterMap_cons]
  cases line.wire? <;> rfl

/-- A line that is written answers first, and the lines above it after that. -/
theorem lastAnswer_of_lines (listing : Listing) {written : Listing}
    {line : Line}
    (lines : written.lines = listing.lines ++ [line]) (output : Output) :
    written.lastAnswer output =
      (line.answer? output).or (listing.lastAnswer output) := by
  rw [lastAnswer, lines, List.filterMap_append, List.getLast?_append,
    List.filterMap_cons]
  cases line.answer? output <;> rfl

/-- A listing whose books agree with a graph that has stored given links. -/
structure Mirrors (listing : Listing) (graph : Graph)
    (wires : List Graph.Wire) : Prop where
  neurons : listing.neurons = graph.neurons
  reader : (listing.reader : Int) = graph.cursor
  wires :
    (listing.wireNeurons ++ listing.waiting).map Int.ofNat =
      wires.map Graph.Wire.index
  answers : ∀ output : Output,
    (listing.lastAnswer output).map Int.ofNat = graph.output output

theorem mirrors_initial : initial.Mirrors Graph.initial [] where
  neurons := rfl
  reader := rfl
  wires := rfl
  answers := by
    intro output
    cases output <;> rfl

namespace Mirrors

variable {listing : Listing} {graph : Graph} {wires : List Graph.Wire}

theorem flush (mirrors : listing.Mirrors graph wires) :
    listing.flush.Mirrors graph wires where
  neurons := mirrors.neurons
  reader := mirrors.reader
  wires := by
    rw [wireNeurons_flush]
    show (_ ++ []).map Int.ofNat = _
    rw [List.append_nil]
    exact mirrors.wires
  answers := by
    intro output
    rw [lastAnswer_flush]
    exact mirrors.answers output

/-- A listing wraps an index around as many neurons as the graph it mirrors. -/
theorem resolve (mirrors : listing.Mirrors graph wires) (index : Int) :
    listing.resolve index = graph.wrap index := by
  rw [Listing.resolve, mirrors.neurons]
  rfl

theorem create (mirrors : listing.Mirrors graph wires)
    (neuron : Neuron Binary64) :
    (listing.receive (Call.numeric (.create neuron))).Mirrors
      (graph.receive (.create neuron)) wires := by
  have flushed := mirrors.flush
  constructor
  case neurons =>
    show listing.neurons ++ [_] = graph.neurons ++ [_]
    rw [mirrors.neurons, neuron.definition_map_pattern]
  case reader =>
    show (listing.neurons.length : Int) = graph.count
    rw [mirrors.neurons]
    rfl
  case wires =>
    -- no read waits after the flush, and the new line shows no wire
    rw [← flushed.wires, wireNeurons_of_lines listing.flush rfl]
    exact congrArg _ (congrArg (· ++ _) (List.append_nil _))
  case answers =>
    intro output
    rw [lastAnswer_of_lines listing.flush rfl]
    cases output
    · exact flushed.answers .dx
    · exact flushed.answers .dy

theorem moveTo (mirrors : listing.Mirrors graph wires) (index : Int) :
    (listing.receive (Call.numeric (.moveTo index))).Mirrors
      (graph.receive (.moveTo index)) wires :=
  { mirrors.flush with
    reader := congrArg Int.ofNat (mirrors.flush.resolve index) }

theorem readFrom (mirrors : listing.Mirrors graph wires) (index : Int) :
    (listing.receive (Call.numeric (.readFrom index))).Mirrors
      (graph.receive (.readFrom index))
      (wires ++ [⟨graph.cursor.toNat, graph.wrap index, graph.count⟩]) :=
  { mirrors with
    wires := by
      show (listing.wireNeurons ++
        (listing.waiting ++ [listing.resolve index])).map Int.ofNat = _
      rw [← List.append_assoc, List.map_append, mirrors.wires,
        mirrors.resolve, List.map_append]
      rfl }

theorem assign (mirrors : listing.Mirrors graph wires) (output : Output)
    (index : Int) :
    (listing.receive (Call.numeric (.assign output index))).Mirrors
      (graph.receive (.assign output index)) wires := by
  have flushed := mirrors.flush
  constructor
  case neurons =>
    cases output <;> exact flushed.neurons
  case reader =>
    cases output <;> exact flushed.reader
  case wires =>
    rw [← flushed.wires, wireNeurons_of_lines listing.flush rfl]
    exact congrArg _ (congrArg (· ++ _) (List.append_nil _))
  case answers =>
    -- the line answers for the axis of the call and leaves the other one alone
    have designated : (some (listing.flush.resolve index)).map Int.ofNat =
        some (graph.wrap index : Int) :=
      congrArg (fun neuron : Nat => some (neuron : Int)) (flushed.resolve index)
    intro asked
    rw [lastAnswer_of_lines listing.flush rfl]
    cases output <;> cases asked
    case dx.dx => exact designated
    case dx.dy => exact flushed.answers .dy
    case dy.dx => exact flushed.answers .dx
    case dy.dy => exact designated

theorem receive (mirrors : listing.Mirrors graph wires) (call : Call) :
    (listing.receive call.numeric).Mirrors (graph.receive call)
      (wires ++ ((graph.ask call).wire? graph.count).toList) := by
  cases call with
  | create neuron =>
      exact (List.append_nil wires).symm ▸ mirrors.create neuron
  | moveTo index =>
      exact (List.append_nil wires).symm ▸ mirrors.moveTo index
  | readFrom index => exact mirrors.readFrom index
  | assign output index =>
      exact (List.append_nil wires).symm ▸ mirrors.assign output index

/-- A listing and a graph that agree still agree after any calls. -/
theorem receiveAll (mirrors : listing.Mirrors graph wires)
    (sound : graph.Sound) (calls : List Call) :
    (listing.receiveAll (calls.map Call.numeric)).Mirrors
      (graph.receiveAll calls)
      (wires ++ graph.wires (calls.map Call.request)) := by
  induction calls generalizing listing graph wires with
  | nil => exact (List.append_nil wires).symm ▸ mirrors
  | cons call rest ih =>
      rw [List.map_cons, List.map_cons, Graph.wires, sound.wire?_request,
        sound.after_request, ← List.append_assoc]
      exact ih (mirrors.receive call) (sound.receive call)

end Mirrors

end Listing

end NeuralGenome
