import NeuralGenome.ListPosition
import NeuralGenome.Network.Kind
import NeuralGenome.Procedure

/-!
# Networks and their memory

A network is a plan that never changes: neurons with their links, and the two
neurons that answer.  What changes between firings is its memory, that is the
signals bound to the two inputs and the last signal of every neuron.  Links and
outputs are signed positions.
-/

namespace NeuralGenome

/-- A neuron of a network and the neurons that it reads, in order. -/
structure LinkedNeuron where
  definition : Definition Binary64
  links : List Int
deriving DecidableEq, Inhabited

namespace LinkedNeuron

variable {definitions : List (Definition Binary64)} {links : List (List Int)}

/-- Joining lists of one length keeps the definitions. -/
theorem map_definition_zipWith (lengths : definitions.length = links.length) :
    (List.zipWith mk definitions links).map definition = definitions := by
  induction definitions generalizing links with
  | nil => rfl
  | cons definition rest ih =>
      cases links with
      | nil => cases lengths
      | cons first others =>
          rw [List.zipWith_cons_cons, List.map_cons, ih (Nat.succ.inj lengths)]

/-- Joining lists of one length keeps the links. -/
theorem map_links_zipWith (lengths : definitions.length = links.length) :
    (List.zipWith mk definitions links).map LinkedNeuron.links = links := by
  induction definitions generalizing links with
  | nil =>
      cases links with
      | nil => rfl
      | cons first others => cases lengths
  | cons definition rest ih =>
      cases links with
      | nil => cases lengths
      | cons first others =>
          rw [List.zipWith_cons_cons, List.map_cons, ih (Nat.succ.inj lengths)]

end LinkedNeuron

/-- A plan of evaluation. -/
structure Network where
  neurons : List LinkedNeuron
  dx : Int
  dy : Int
deriving DecidableEq, Inhabited

/-- What a network carries from one firing to the next. -/
structure Memory where
  x : Binary64
  y : Binary64
  signals : List Binary64
deriving DecidableEq, Inhabited

namespace Memory

/-- The memory of a network of a given size before it has fired. -/
def initial (size : Nat) : Memory :=
  ⟨.zero, .zero, List.replicate size .zero⟩

/-- Keep the new signal of a neuron. -/
def store (memory : Memory) (neuron : Nat) (signal : Binary64) : Memory :=
  { memory with signals := memory.signals.set neuron signal }

/-- The last signal of a neuron. -/
def signal (memory : Memory) (index : Int) : Except Fault Binary64 :=
  match ListPosition.get? memory.signals index with
  | some signal => .ok signal
  | none => .error (
      if Word.holds index then .signalPosition index memory.signals.length
      else if Word.holdsUnsigned index then .oversizedIndex
      else .unusableIndex)

/--
The last signals of several neurons; the first that does not exist is the fault.
-/
def gather (memory : Memory) : List Int → Except Fault (List Binary64)
  | [] => .ok []
  | index :: rest => do
      let signal ← memory.signal index
      return signal :: (← memory.gather rest)

/--
Bind the signals of the two inputs; the first is bound before the second is
converted.
-/
def bind (x y : Number) : Procedure Memory Unit := do
  let x ← Procedure.ofExcept x.toBinary64
  modify fun memory => { memory with x := x }
  let y ← Procedure.ofExcept y.toBinary64
  modify fun memory => { memory with y := y }

@[simp]
theorem length_signals_initial (size : Nat) :
    (initial size).signals.length = size := by
  simp [initial]

@[simp]
theorem length_signals_store (memory : Memory) (neuron : Nat)
    (signal : Binary64) :
    (memory.store neuron signal).signals.length = memory.signals.length := by
  simp [store]

end Memory

namespace Network

/-- How many neurons a network has. -/
def size (network : Network) : Nat :=
  network.neurons.length

/-- The neuron that answers for an axis. -/
def output (network : Network) : Output → Int
  | .dx => network.dx
  | .dy => network.dy

/--
Whether a link can be kept in a network of a given size: it names a neuron or
fits a word.
-/
def keepsLink (size : Nat) (link : Int) : Bool :=
  (ListPosition.place? size link).isSome || Word.holds link

/--
Join definitions with their links; there must be as many of one as of the other.

The lengths are compared first, then all parameters are converted, then all
links are checked.
-/
def assemble (definitions : List (Definition Number)) (links : List (List Int))
    (dx dy : Int) : Except Fault Network := do
  if definitions.length = links.length then
    let converted ← definitions.mapM Definition.toBinary64
    if links.all fun inputs => inputs.all (keepsLink definitions.length) then
      return ⟨List.zipWith LinkedNeuron.mk converted links, dx, dy⟩
    else throw .oversizedIndex
  else throw .unequalLengths

/--
A network from separate lists of kinds, parameters and links.

The lengths are compared first, then all kinds are read.
-/
def ofLists (kinds : List Int) (parameters : List Number)
    (links : List (List Int)) (dx dy : Int) : Except Fault Network := do
  if kinds.length = parameters.length ∧ parameters.length = links.length then
    let kinds ← kinds.mapM Kind.ofCode
    assemble (List.zipWith Definition.mk kinds parameters) links dx dy
  else throw .unequalLengths

end Network

end NeuralGenome
