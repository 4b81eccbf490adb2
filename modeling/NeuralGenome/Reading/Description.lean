import NeuralGenome.Procedure
import NeuralGenome.Reading.Listing

/-!
# Layered descriptions

A layered description reads a network as layers of neurons joined by weighted
synapses.  A weighted sum counts as a synapse: the neuron it reads last is the
readee, and the neuron that reads it, the last of several, is the reader; either
may be absent.

Layers are peeled off: the readees that are not themselves readers form the next
layer and take their synapses with them.  When nothing can be peeled the neurons
that are no weighted sums and stand in no layer yet form the last one.
-/

namespace NeuralGenome

/--
A weighted sum seen as a link from the neuron it reads to the neuron that reads
it.
-/
structure Synapse where
  reader : Option Nat
  weight : Binary64
  readee : Option Nat
deriving DecidableEq

/-- Whether a synapse leads from one neuron to another. -/
def Synapse.joins (synapse : Synapse) (source target : Int) : Bool :=
  synapse.readee.map Int.ofNat == some source && synapse.reader.map Int.ofNat ==
    some target

/-- How descriptions call a neuron. -/
def Definition.layerName (definition : Definition Binary64) : String :=
  match definition.kind with
  | .fixed => definition.parameter.text
  | _ => definition.numeric.listingName

/-- The layers, synapses and names of a network. -/
structure Description where
  layers : List (List Nat)
  synapses : List Synapse
  names : List String
  dx : Option Nat
  dy : Option Nat
deriving DecidableEq

namespace Description

/--
The weight of the first synapse between two neurons, zero when there is none.
-/
def weight (description : Description) (source target : Int) : Binary64 :=
  match description.synapses.find? fun synapse =>
    synapse.joins source target with
  | some synapse => synapse.weight
  | none => .zero

/-- The name of a neuron after the axis that it answers for, if any. -/
def title (description : Description) (neuron : Int) : String :=
  let axis :=
    if description.dx.map Int.ofNat == some neuron then Output.dx.label ++ ":"
    else if description.dy.map Int.ofNat == some neuron then
      Output.dy.label ++ ":"
    else ""
  let name := if 0 ≤ neuron then description.names[neuron.toNat]? else none
  axis ++ name.getD "?"

end Description

/-! ## Peeling -/

namespace Synapse

/--
Whether the readee of a synapse, absent or not, is the reader of some synapse.
-/
def isFed (synapses : List Synapse) (synapse : Synapse) : Bool :=
  synapses.any fun other => other.reader == synapse.readee

/-- The neurons below a count that are readees of given synapses, ascending. -/
def readees (count : Nat) (synapses : List Synapse) : List Nat :=
  (List.range count).filter fun neuron => synapses.any fun synapse =>
    synapse.readee == some neuron

/-- The synapses whose readee is the reader of no synapse. -/
def free (synapses : List Synapse) : List Synapse :=
  synapses.filter fun synapse => !isFed synapses synapse

/-- The synapses whose readee is the reader of some synapse. -/
def fed (synapses : List Synapse) : List Synapse :=
  synapses.filter (isFed synapses)

/-- When some synapse is free, fewer are fed than there are. -/
theorem length_fed_lt {synapses : List Synapse} (found : free synapses ≠ []) :
    (fed synapses).length < synapses.length := by
  obtain ⟨synapse, member⟩ := List.exists_mem_of_ne_nil _ found
  rw [free, List.mem_filter] at member
  exact List.length_filter_lt_length_iff_exists.mpr
    ⟨synapse, member.1, by simpa using member.2⟩

/-- Peel layers off until no synapse is free. -/
def peel (count : Nat) (synapses : List Synapse) : List (List Nat) :=
  if free synapses = [] then []
  else readees count (free synapses) :: peel count (fed synapses)
termination_by synapses.length
decreasing_by exact length_fed_lt (by assumption)

end Synapse

/-! ## Reading a program -/

/-- A description in the making. -/
structure Sketch where
  /-- How many neurons there are. -/
  count : Nat
  cursor : Nat
  /-- The neurons that are no weighted sums, ascending. -/
  unweighted : List Nat
  /-- The weighted sums with their weights, ascending. -/
  weighted : List (Nat × Binary64)
  names : List String
  /-- Pairs of a reader and the neuron it reads, in order. -/
  readings : List (Nat × Nat)
  dx : Option Nat
  dy : Option Nat
deriving DecidableEq

namespace Sketch

/-- Add a neuron, weighted or not, and move the cursor to it. -/
def create (sketch : Sketch) (definition : Definition Binary64) : Sketch :=
  let named :=
    { sketch with
      count := sketch.count + 1
      cursor := sketch.count
      names := sketch.names ++ [definition.layerName] }
  match definition.kind with
  | .weightedSum =>
      { named with
        weighted := sketch.weighted ++ [(sketch.count, definition.parameter)] }
  | _ => { named with unweighted := sketch.unweighted ++ [sketch.count] }

/--
What a new neuron changes, with its kind deciding only where it is listed.
-/
theorem create_eq (sketch : Sketch) (definition : Definition Binary64) :
    sketch.create definition =
      { sketch with
        count := sketch.count + 1
        cursor := sketch.count
        names := sketch.names ++ [definition.layerName]
        unweighted := sketch.unweighted ++
          if definition.kind = .weightedSum then [] else [sketch.count]
        weighted := sketch.weighted ++
          if definition.kind = .weightedSum then
            [(sketch.count, definition.parameter)]
          else [] } := by
  unfold create
  split
  case h_1 weighted => simp [weighted]
  case h_2 other =>
      have unweighted : definition.kind ≠ .weightedSum := other
      simp [unweighted]

/-- The sketch before any call: the two inputs, with the cursor on the first. -/
def initial : Sketch :=
  let first := (Sketch.mk 0 0 [] [] [] [] none none).create ⟨.inputX, .zero⟩
  { first.create ⟨.inputY, .zero⟩ with cursor := 0 }

/-- The neuron that an index names. -/
def resolve (sketch : Sketch) (index : Int) : Nat :=
  ListPosition.wrap sketch.count index

/-- The neuron that answers for an axis, once it is designated. -/
def output (sketch : Sketch) : Output → Option Nat
  | .dx => sketch.dx
  | .dy => sketch.dy

/-- Receive a call. -/
def receive (sketch : Sketch) : Call → Sketch
  | .create neuron => sketch.create (neuron.definition .zero)
  | .moveTo index => { sketch with cursor := sketch.resolve index }
  | .readFrom index =>
      { sketch with
        readings := sketch.readings ++ [(sketch.cursor, sketch.resolve index)] }
  | .assign .dx index => { sketch with dx := some (sketch.resolve index) }
  | .assign .dy index => { sketch with dy := some (sketch.resolve index) }

/-- Receive a call whose value has to be converted first. -/
def receiveNumeric (call : NumericCall) : Procedure Sketch Unit := do
  let call ← Procedure.ofExcept (call.convert .ok Number.toBinary64)
  modify (·.receive call)

/-- Receive calls in order. -/
def receiveAll (sketch : Sketch) (calls : List Call) : Sketch :=
  calls.foldl receive sketch

/-- The last neuron that a neuron reads. -/
def lastRead (sketch : Sketch) (neuron : Nat) : Option Nat :=
  ((sketch.readings.filter fun reading => reading.1 == neuron).getLast?).map
    Prod.snd

/-- The last neuron that reads a neuron. -/
def lastReader (sketch : Sketch) (neuron : Nat) : Option Nat :=
  ((sketch.readings.filter fun reading => reading.2 == neuron).getLast?).map
    Prod.fst

/-- The synapses of a sketch, one for each weighted sum. -/
def synapses (sketch : Sketch) : List Synapse :=
  sketch.weighted.map fun (neuron, weight) =>
    ⟨sketch.lastReader neuron, weight, sketch.lastRead neuron⟩

/--
The layers of a sketch: those peeled off, then what is left; no layer is empty.
-/
def layers (sketch : Sketch) : List (List Nat) :=
  let peeled := Synapse.peel sketch.count sketch.synapses
  let rest := sketch.unweighted.filter fun neuron =>
    !peeled.any (·.contains neuron)
  (peeled ++ [rest]).filter fun layer => !layer.isEmpty

/-- The description of what has been received. -/
def describe (sketch : Sketch) : Description where
  layers := sketch.layers
  synapses := sketch.synapses
  names := sketch.names
  dx := sketch.dx
  dy := sketch.dy

end Sketch

/-- The layered description of a program. -/
def Program.description (program : Program) : Description :=
  (Sketch.initial.receiveAll program.calls).describe

end NeuralGenome
