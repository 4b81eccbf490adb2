import NeuralGenome.Genome.Program
import NeuralGenome.ListPosition
import NeuralGenome.Network.Kind

/-!
# Program listings

A listing shows the network that a program describes, one line for each neuron,
wire or output.  Wires are listed under the neuron that receives them.  That
neuron is repeated on a line of its own when it is not the one created last.

Reads wait until the next creation, move or output and are then written
together, so one receiver line serves all of them.  Lines are typed, and
`Listing.Line.text` is the only place where a line becomes text.
-/

namespace NeuralGenome

/-- How listings call a neuron. -/
def Definition.listingName (definition : Definition Number) : String :=
  match definition.kind with
  | .inputX => "X"
  | .inputY => "Y"
  | .fixed => "CONST(" ++ definition.parameter.text ++ ")"
  | .random => "RAND"
  | .sum => "SUM"
  | .weightedSum => "WEIGHT(" ++ definition.parameter.text ++ ")"
  | .minimum => "MIN"
  | .maximum => "MAX"

/-- One line of a listing. -/
inductive Listing.Line where
  /-- A neuron is created. -/
  | created (neuron : Nat) (name : String)
  /-- The wires that follow end at this neuron. -/
  | receiver (neuron : Nat) (name : String)
  /-- A wire starts at this neuron. -/
  | wire (neuron : Nat) (name : String)
  /-- A neuron answers for an axis. -/
  | answer (output : Output) (neuron : Nat) (name : String)
deriving DecidableEq

/-- A line as text. -/
def Listing.Line.text : Listing.Line → String
  | created neuron name => s!"{neuron} = {name}"
  | receiver neuron name => s!"{neuron}:{name}"
  | wire neuron name => s!"→{neuron}:{name}"
  | answer output neuron name => s!"{output.mnemonic} = {neuron}:{name}"

/-- A listing in the making. -/
structure Listing where
  lines : List Listing.Line
  neurons : List (Definition Number)
  /-- Reads that wait to be written. -/
  waiting : List Nat
  /-- The neuron that receives reads. -/
  reader : Nat
  /-- The neuron created last. -/
  latest : Nat
deriving DecidableEq

namespace Listing

/-- The name of a neuron, empty when there is none. -/
def name (listing : Listing) (neuron : Nat) : String :=
  ((listing.neurons[neuron]?).map Definition.listingName).getD ""

/-- The neuron that an index names. -/
def resolve (listing : Listing) (index : Int) : Nat :=
  ListPosition.wrap listing.neurons.length index

/-- The lines of the reads that wait. -/
def waitingLines (listing : Listing) : List Line :=
  if listing.waiting.isEmpty then []
  else
    (if listing.latest = listing.reader then []
      else [.receiver listing.reader (listing.name listing.reader)]) ++
    listing.waiting.map fun neuron => .wire neuron (listing.name neuron)

/-- Write the reads that wait. -/
def flush (listing : Listing) : Listing :=
  { listing with lines := listing.lines ++ listing.waitingLines, waiting := [] }

/-- List a neuron, which receives the reads that follow. -/
def create (listing : Listing) (definition : Definition Number) : Listing :=
  let flushed := listing.flush
  let neuron := flushed.neurons.length
  { flushed with
    lines := flushed.lines ++ [.created neuron definition.listingName]
    neurons := flushed.neurons ++ [definition]
    reader := neuron
    latest := neuron }

/--
The listing before any call: both inputs are listed, and the first receives
reads.
-/
def initial : Listing :=
  let first := (Listing.mk [] [] [] 0 0).create ⟨.inputX, .pattern .zero⟩
  { first.create ⟨.inputY, .pattern .zero⟩ with reader := 0 }

/-- Receive a call; its value is shown as it is given. -/
def receive (listing : Listing) : NumericCall → Listing
  | .create neuron => listing.create (neuron.definition (.pattern .zero))
  | .moveTo index =>
      let flushed := listing.flush
      { flushed with reader := flushed.resolve index }
  | .readFrom index =>
      { listing with waiting := listing.waiting ++ [listing.resolve index] }
  | .assign output index =>
      let flushed := listing.flush
      let neuron := flushed.resolve index
      { flushed with
        lines := flushed.lines ++
          [.answer output neuron (flushed.name neuron)] }

/-- Receive calls in order. -/
def receiveAll (listing : Listing) (calls : List NumericCall) : Listing :=
  calls.foldl receive listing

/-- The text of all lines, once no read waits. -/
def text (listing : Listing) : String :=
  "\n".intercalate (listing.lines.map Line.text)

/-- The text of all lines, and the listing that goes on with no read waiting. -/
def finish (listing : Listing) : String × Listing :=
  (listing.flush.text, listing.flush)

end Listing

/-- The listing of a program. -/
def Program.listing (program : Program) : Listing :=
  (Listing.initial.receiveAll (program.calls.map Call.numeric)).flush

end NeuralGenome
